import LanguageClient.Text.Decimal

namespace LanguageClient.Wire

inductive Fault where
  | io (reason : String)
  | closed
  | missingContentLength
  | invalidHeader
  | frameTooLarge (length limit : Nat)
  deriving DecidableEq

def Fault.message : Fault → String
  | io reason => "pipe error: " ++ reason
  | closed => "stream closed"
  | missingContentLength => "frame header lacks Content-Length"
  | invalidHeader => "malformed frame header"
  | frameTooLarge length limit =>
    "frame of " ++ Decimal.render length ++ " bytes exceeds the " ++ Decimal.render limit ++
      " byte limit"

end LanguageClient.Wire
