import Wirebench.Text.Numeral

namespace Wirebench

inductive DescriptorFault
  | missingProtocol
  | protocolOptions
  | missingPort
  | emptyHost
  | tooManyFields
  | invalidPort (token : String)
  | portNotSet
  | portNotFilledIn
  | stackMismatch (acceptor : String)
  | notFiltered
  | notOverProtocol (article protocol : String)
  | missingFamily
  | missingAddressPort
  | invalidAddress
  | invalidAddressPort
  | familyMismatch
  | custom (text : String)
  deriving DecidableEq, Repr

def DescriptorFault.message : DescriptorFault → String
  | missingProtocol => "missing protocol"
  | protocolOptions => "protocol options are not supported"
  | missingPort => "missing port"
  | emptyHost => "empty host"
  | tooManyFields => "too many fields"
  | invalidPort token => "invalid port '" ++ token ++ "'"
  | portNotSet => "port not set"
  | portNotFilledIn => "port not filled in"
  | stackMismatch acceptor => "stack does not match acceptor " ++ acceptor
  | notFiltered => "expected a telnet descriptor"
  | notOverProtocol article protocol => "not " ++ article ++ " " ++ protocol ++ " descriptor"
  | missingFamily => "missing family"
  | missingAddressPort => "missing port"
  | invalidAddress => "invalid address"
  | invalidAddressPort => "invalid port"
  | familyMismatch => "family does not match address"
  | custom text => text

/-- A failure of an endpoint, an acceptor or a descriptor. -/
inductive StreamError
  | invalidDescriptor (descriptor : String) (fault : DescriptorFault)
  | unsupportedProtocol (token : String)
  | protocolUnavailable (protocol : String)
  | listenFailed (address reason : String)
  | connectFailed (address reason : String)
  | unresolved (host : String)
  | timeout (milliseconds : Nat)
  | negotiation (reason : String)
  | closed
  | remoteClosed
  | notSupported (what : String)
  | invalidControlValue (option value : String)
  | contextShutdown
  | io (text : String)
  deriving DecidableEq, Repr

namespace StreamError

def message : StreamError → String
  | invalidDescriptor descriptor fault =>
    "Invalid descriptor '" ++ descriptor ++ "': " ++ fault.message
  | unsupportedProtocol token => "Unsupported protocol: " ++ token
  | protocolUnavailable protocol => "Protocol " ++ protocol ++ " is not available on this host"
  | listenFailed address reason => "Failed to listen on " ++ address ++ ": " ++ reason
  | connectFailed address reason => "Failed to connect to " ++ address ++ ": " ++ reason
  | unresolved host => "Unable to resolve " ++ host
  | timeout ms => "Operation timed out after " ++ String.ofList (Text.decimal ms) ++ "ms"
  | negotiation reason => "Negotiation failed: " ++ reason
  | closed => "Endpoint is closed"
  | remoteClosed => "Remote end closed the connection"
  | notSupported what => "Operation not supported: " ++ what
  | invalidControlValue option value =>
    "Invalid control value for " ++ option ++ ": " ++ value
  | contextShutdown => "Library context has been shut down"
  | io text => "IO error: " ++ text

def code : StreamError → String
  | invalidDescriptor .. => "INVALID_DESCRIPTOR"
  | unsupportedProtocol .. => "UNSUPPORTED_PROTOCOL"
  | protocolUnavailable .. => "PROTOCOL_UNAVAILABLE"
  | listenFailed .. => "LISTEN_FAILED"
  | connectFailed .. => "CONNECT_FAILED"
  | unresolved .. => "RESOLVE_FAILED"
  | timeout .. => "TIMEOUT"
  | negotiation .. => "NEGOTIATION_FAILED"
  | closed => "CLOSED"
  | remoteClosed => "REMOTE_CLOSED"
  | notSupported .. => "NOT_SUPPORTED"
  | invalidControlValue .. => "INVALID_CONTROL_VALUE"
  | contextShutdown => "CONTEXT_SHUTDOWN"
  | io .. => "IO_ERROR"

/-- A text was rejected before anything was opened. -/
def isDescriptorError : StreamError → Bool
  | invalidDescriptor .. | unsupportedProtocol .. => true
  | _ => false

/-- The endpoint or its peer is gone. -/
def isClosed : StreamError → Bool
  | closed | remoteClosed => true
  | _ => false

end StreamError

end Wirebench
