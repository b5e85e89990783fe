import Mathlib.Data.List.Basic
import Koshi.Core.Ids

/-!
# Remote access tokens

The store of the machine's remote grants (`koshi-ipc/src/remote_tokens.rs`). A grant keeps the hash of its secret and
never the secret, so a presented secret is accepted by comparing hashes. A time is a number of nanoseconds before or
after the epoch. The secret a grant draws is an argument, and so is `sha256`.
-/

namespace Koshi.Ipc

open Koshi.Core

/-- A point of the system clock, in nanoseconds from the epoch. -/
abbrev SystemTime := Int

/-- How long an ended grant stays in the store: thirty days. -/
def tokenRecordRetentionDuration : Int := 30 * 24 * 60 * 60 * 1000000000

/-- A secret as the operator types it. -/
structure ConnectionToken where
  secret : String
  deriving DecidableEq, Repr

/-- How far one grant reaches. -/
inductive TokenScope where
  | hostWide
  | session (sessionId : SessionId)
  deriving DecidableEq, Repr

/-- What the store keeps about one grant. -/
structure TokenRecord where
  identity : String
  tokenHash : String
  scope : TokenScope
  issuedAt : SystemTime
  expiresAt : Option SystemTime
  lastUsedAt : Option SystemTime
  revokedAt : Option SystemTime
  deriving DecidableEq, Repr

/-- Every grant this machine has made, in the order they were made. -/
structure TokenStore where
  tokenRecords : List TokenRecord
  deriving DecidableEq, Repr

/-! ### Hashes -/

def hexDigits : List Char := "0123456789abcdef".toList

/-- The two characters of one byte. -/
def formatHexByte (inputByte : UInt8) : List Char :=
  [hexDigits.getD (inputByte >>> 4).toNat '0', hexDigits.getD (inputByte &&& 0x0f).toNat '0']

/-- `format_hex`: lowercase hex, two characters for each byte. -/
def formatHex (inputBytes : List UInt8) : String := String.ofList (inputBytes.flatMap formatHexByte)

section Hash

variable (sha256 : List UInt8 → List UInt8)

/-- The sha256 of the secret, in hex. -/
def hashConnectionToken (connectionToken : ConnectionToken) : String :=
  formatHex (sha256 connectionToken.secret.toUTF8.toList)

end Hash

/-! ### Liveness -/

/-- Nobody revoked the grant, and it does not expire at or before `currentTime`. -/
def isTokenActiveAt (revokedAt expiresAt : Option SystemTime) (currentTime : SystemTime) : Bool :=
  revokedAt.isNone && expiresAt.all fun expiry => expiry > currentTime

namespace TokenRecord

def isActiveAt (tokenRecord : TokenRecord) (currentTime : SystemTime) : Bool :=
  isTokenActiveAt tokenRecord.revokedAt tokenRecord.expiresAt currentTime

/-- When the record stopped working, as seen at `currentTime`; `none` while it stands. -/
def findEndedAt (tokenRecord : TokenRecord) (currentTime : SystemTime) : Option SystemTime :=
  let expiredAt := tokenRecord.expiresAt.filter fun expiry => expiry ≤ currentTime
  match tokenRecord.revokedAt, expiredAt with
  | some revokedAt, some expiredAt => some (min revokedAt expiredAt)
  | revokedAt, expiredAt => revokedAt.or expiredAt

end TokenRecord

namespace TokenStore

/-- The store of a machine that has granted nothing. -/
def new : TokenStore := ⟨[]⟩

variable (tokenStore : TokenStore)

section Grants

variable (sha256 : List UInt8 → List UInt8)

/-- Hands `identity` the secret `connectionToken` on `scope`, in place of every record it held there. Returns whether
one of them still stood. -/
def grantToken (identity : String) (scope : TokenScope) (issuedAt : SystemTime) (expiresAt : Option SystemTime)
    (connectionToken : ConnectionToken) : TokenStore × Bool :=
  let hasReplacedActiveGrant := tokenStore.tokenRecords.any fun tokenRecord =>
    tokenRecord.identity = identity && tokenRecord.scope = scope && tokenRecord.isActiveAt issuedAt
  let keptRecords := tokenStore.tokenRecords.filter fun tokenRecord =>
    tokenRecord.identity ≠ identity || tokenRecord.scope ≠ scope
  let tokenRecord : TokenRecord := {
    identity
    tokenHash := hashConnectionToken sha256 connectionToken
    scope
    issuedAt
    expiresAt
    lastUsedAt := none
    revokedAt := none }
  (⟨keptRecords ++ [tokenRecord]⟩, hasReplacedActiveGrant)

/-- What a presented secret reaches: the scope of the last standing record with its hash. -/
def findTokenScope (connectionToken : ConnectionToken) (currentTime : SystemTime) : Option TokenScope :=
  let presentedTokenHash := hashConnectionToken sha256 connectionToken
  tokenStore.tokenRecords.foldl (fun matchingTokenScope tokenRecord =>
    if tokenRecord.tokenHash = presentedTokenHash && tokenRecord.isActiveAt currentTime then some tokenRecord.scope
    else matchingTokenScope) none

end Grants

def isRevokedBy (identity : String) (scope : Option TokenScope) (tokenRecord : TokenRecord) : Bool :=
  !(tokenRecord.identity ≠ identity || tokenRecord.revokedAt.isSome) &&
    !scope.any fun requestedScope => requestedScope ≠ tokenRecord.scope

/-- Stops every standing grant of `identity`, or the one on `scope`. Returns the scopes it stopped. -/
def revokeTokenGrants (identity : String) (scope : Option TokenScope) (currentTime : SystemTime) :
    TokenStore × List TokenScope :=
  (⟨tokenStore.tokenRecords.map fun tokenRecord =>
      if isRevokedBy identity scope tokenRecord then { tokenRecord with revokedAt := some currentTime } else
          tokenRecord⟩,
    (tokenStore.tokenRecords.filter (isRevokedBy identity scope)).map (·.scope))

def isNewerUse (tokenHash : String) (usedAt : SystemTime) (tokenRecord : TokenRecord) : Bool :=
  tokenRecord.tokenHash = tokenHash && tokenRecord.lastUsedAt.all fun lastUsedAt => lastUsedAt < usedAt

/-- Stamps the last use of the records with `tokenHash`. Returns whether a record changed. -/
def updateTokenLastUsed (tokenHash : String) (usedAt : SystemTime) : TokenStore × Bool :=
  (⟨tokenStore.tokenRecords.map fun tokenRecord =>
      if isNewerUse tokenHash usedAt tokenRecord then { tokenRecord with lastUsedAt := some usedAt } else tokenRecord⟩,
    tokenStore.tokenRecords.any (isNewerUse tokenHash usedAt))

/-- The record stopped working long enough before `currentTime` to be dropped. -/
def isEndedRecord (currentTime : SystemTime) (tokenRecord : TokenRecord) : Bool :=
  (tokenRecord.findEndedAt currentTime).any fun endedAt =>
    -- `duration_since` fails for a stop time after `currentTime`, and the record stays
    endedAt ≤ currentTime && !(currentTime - endedAt < tokenRecordRetentionDuration)

/-- Drops every record that stopped working thirty days before `currentTime` or earlier. -/
def removeEndedTokenRecords (currentTime : SystemTime) : TokenStore :=
  ⟨tokenStore.tokenRecords.filter fun tokenRecord => !isEndedRecord currentTime tokenRecord⟩

end TokenStore

/-! ### Runs -/

/-- One change to the store. -/
inductive TokenOperation where
  | grant (identity : String) (scope : TokenScope) (issuedAt : SystemTime) (expiresAt : Option SystemTime)
      (connectionToken : ConnectionToken)
  | revoke (identity : String) (scope : Option TokenScope) (currentTime : SystemTime)
  | updateLastUsed (tokenHash : String) (usedAt : SystemTime)
  | removeEnded (currentTime : SystemTime)
  deriving DecidableEq, Repr

namespace TokenOperation

/-- When the operation happens. -/
def time : TokenOperation → SystemTime
  | grant _ _ issuedAt _ _ => issuedAt
  | revoke _ _ currentTime => currentTime
  | updateLastUsed _ usedAt => usedAt
  | removeEnded currentTime => currentTime

def grantedSecret : TokenOperation → Option ConnectionToken
  | grant _ _ _ _ connectionToken => some connectionToken
  | _ => none

def apply (sha256 : List UInt8 → List UInt8) (tokenStore : TokenStore) : TokenOperation → TokenStore
  | grant identity scope issuedAt expiresAt connectionToken =>
    (tokenStore.grantToken sha256 identity scope issuedAt expiresAt connectionToken).1
  | revoke identity scope currentTime => (tokenStore.revokeTokenGrants identity scope currentTime).1
  | updateLastUsed tokenHash usedAt => (tokenStore.updateTokenLastUsed tokenHash usedAt).1
  | removeEnded currentTime => tokenStore.removeEndedTokenRecords currentTime

end TokenOperation

/-- The store after the operations, oldest first, from an empty store. -/
def runTokenOperations (sha256 : List UInt8 → List UInt8) (operations : List TokenOperation) : TokenStore :=
  operations.foldl (TokenOperation.apply sha256) .new

end Koshi.Ipc
