import LanguageClient.Config.Reader
import LanguageClient.Main
import LanguageClient.Proofs.Delivery
import LanguageClient.Proofs.Framing
import LanguageClient.Proofs.Grammar
import LanguageClient.Proofs.Ledger
import LanguageClient.Proofs.Noninterference
import LanguageClient.Proofs.Progress
import LanguageClient.Proofs.Ranking
import LanguageClient.Proofs.Shown
import LanguageClient.Proofs.Acceptance
import LanguageClient.Proofs.Listening
import LanguageClient.Proofs.JsonTokens
import LanguageClient.Proofs.JsonText
import LanguageClient.Proofs.Calls
import LanguageClient.Proofs.Handshaking
import LanguageClient.Proofs.Announcing
import LanguageClient.Proofs.Recording
import LanguageClient.Proofs.Requesting
import LanguageClient.Proofs.Routing
import LanguageClient.Proofs.Supervising
import LanguageClient.Proofs.Registering
import LanguageClient.Proofs.Correlating
import LanguageClient.Proofs.Settling
import LanguageClient.Proofs.Standing
import LanguageClient.Proofs.Rearranging
import LanguageClient.Proofs.Bodies
import LanguageClient.Proofs.Breaking
import LanguageClient.Proofs.Reporting
import LanguageClient.Proofs.Templates
import LanguageClient.Proofs.Cleaning
import LanguageClient.Proofs.Selecting
import LanguageClient.Proofs.Positions
import LanguageClient.Proofs.Replacing
import LanguageClient.Proofs.Coordinates
import LanguageClient.Proofs.Editing
import LanguageClient.Proofs.Landing
import LanguageClient.Proofs.Debouncing
import LanguageClient.Proofs.Words
import LanguageClient.Proofs.Lookback
import LanguageClient.Proofs.Offering
import LanguageClient.Proofs.Rooting
import LanguageClient.Proofs.Splitting
import LanguageClient.Proofs.Addressing
import LanguageClient.Proofs.Measuring
import LanguageClient.Proofs.Members
import LanguageClient.Proofs.Omitting
import LanguageClient.Proofs.Sweeping
