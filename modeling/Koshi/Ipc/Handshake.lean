import Koshi.Ipc.RemoteTokens

/-!
# The gate of a connection

The handshake rule that every koshi protocol's gate runs (`koshi-ipc/src/handshake.rs`), over the words and the versions
of the protocol, and the refusals it answers with (`protocol.rs`).
-/

namespace Koshi.Ipc

inductive IpcErrorCode where
  | badToken
  | unsupportedVersion
  | unsupportedKind
  | malformedRequest
  | requestFailed
  | notFound
  | resourceLimit
  | helloRequired
  | otherUsersOff
  | restarting
  /-- A refusal this build has no name for. -/
  | unknown
  deriving DecidableEq, Repr

structure IpcErrorPayload where
  code : IpcErrorCode
  message : String
  deriving DecidableEq

/-- The version both sides use: the highest they both have. -/
def computeAgreedProtocolVersion (callerMinimumProtocolVersion callerMaximumProtocolVersion buildMinimumProtocolVersion
    buildMaximumProtocolVersion : Nat) : Option Nat :=
  let highestProtocolVersion := min callerMaximumProtocolVersion buildMaximumProtocolVersion
  let lowestProtocolVersion := max callerMinimumProtocolVersion buildMinimumProtocolVersion
  if lowestProtocolVersion ≤ highestProtocolVersion then some highestProtocolVersion else none

/-- What one protocol calls itself in its gate's refusals, and the versions it speaks. -/
structure GateWords where
  peer : String
  tokenOwner : String
  caller : String
  versions : String
  channel : String
  minimumProtocolVersion : Nat
  maximumProtocolVersion : Nat

/-- One connection's gate, open once a version is agreed on. -/
structure VersionGate (words : GateWords) where
  expectedConnectionToken : ConnectionToken
  agreedProtocolVersion : Option Nat
  deriving DecidableEq

namespace VersionGate

variable {words : GateWords}

/-- A closed gate. -/
def fromExpectedToken (expectedConnectionToken : ConnectionToken) : VersionGate words := ⟨expectedConnectionToken, none⟩

variable (gate : VersionGate words)

def negotiateProtocolVersion (words : GateWords) (callerMinimumProtocolVersion callerMaximumProtocolVersion : Nat) :
    Except IpcErrorPayload Nat :=
  match computeAgreedProtocolVersion callerMinimumProtocolVersion callerMaximumProtocolVersion
      words.minimumProtocolVersion words.maximumProtocolVersion with
  | some agreedProtocolVersion => .ok agreedProtocolVersion
  | none => .error ⟨.unsupportedVersion, "the " ++ words.caller ++ " speaks " ++ words.versions ++ " " ++
      toString callerMinimumProtocolVersion ++ " to " ++ toString callerMaximumProtocolVersion ++ ", this " ++
      words.peer ++ " speaks " ++ toString words.minimumProtocolVersion ++ " to " ++
      toString words.maximumProtocolVersion⟩

def validateConnectionToken (connectionToken : ConnectionToken) : Except IpcErrorPayload Unit :=
  if connectionToken ≠ gate.expectedConnectionToken then
    .error ⟨.badToken, "the token presented does not match " ++ words.tokenOwner⟩
  else .ok ()

/-- A Hello: the version range first, then the token, and the gate opens once both pass. -/
def validateHello (callerMinimumProtocolVersion callerMaximumProtocolVersion : Nat)
    (connectionToken : ConnectionToken) : Except IpcErrorPayload (VersionGate words) := do
  let agreedProtocolVersion ← negotiateProtocolVersion words callerMinimumProtocolVersion callerMaximumProtocolVersion
  gate.validateConnectionToken connectionToken
  return { gate with agreedProtocolVersion := some agreedProtocolVersion }

def buildHelloRequiredError (words : GateWords) (requestKindName : String) : IpcErrorPayload :=
  ⟨.helloRequired, requestKindName ++ " arrived before a Hello opened the " ++ words.channel⟩

def validateNonHelloRequestKind (requestKindName : String) : Except IpcErrorPayload Unit :=
  if gate.agreedProtocolVersion.isSome then .ok () else .error (buildHelloRequiredError words requestKindName)

def buildUnknownRequestKindError (requestKindName : String) : IpcErrorPayload :=
  if gate.agreedProtocolVersion.isNone then buildHelloRequiredError words requestKindName
  else ⟨.unsupportedKind, "this " ++ words.peer ++ " has no request kind named " ++ requestKindName⟩

end VersionGate

end Koshi.Ipc
