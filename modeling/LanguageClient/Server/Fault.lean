import LanguageClient.Wire.Fault
import LanguageClient.Text.Decimal

namespace LanguageClient.Server

inductive Fault where
  | binaryNotFound (command : String)
  | spawnFailed (context : String)
  | transport (fault : Wire.Fault)
  | codec (reason : String)
  | refused (code : Int) (message : String)
  | handshakeTimeout (attempts : Nat)
  | notReady
  | processExited
  deriving DecidableEq

def Fault.message : Fault → String
  | binaryNotFound command =>
    "cannot find language server executable `" ++ command ++ "`"
  | spawnFailed context => "could not launch language server (" ++ context ++ ")"
  | transport fault => fault.message
  | codec reason => "cannot encode message body: " ++ reason
  | refused code message =>
    "language server rejected the request with code " ++ Decimal.renderInt code ++ ": " ++ message
  | handshakeTimeout attempts =>
    "no initialize result after " ++ Decimal.render attempts ++ " attempts"
  | notReady => "language server is not initialized"
  | processExited => "language server output closed"

end LanguageClient.Server
