import Mathlib.Tactic
import Koshi.Ipc.RemoteTokens

/-!
# Which secrets are accepted

Every record of the store comes from one grant of the run, the last one for its identity and scope, and is revoked
exactly when a revocation followed it. A grant that nothing ended keeps its record until the record has expired. So a
secret is accepted by what the run did with its grant, and the clean-up changes no answer.
-/

namespace Koshi.Ipc

open Koshi.Core List Option TokenOperation TokenStore

/-! ### Hashes -/

def readHexDigit (digit : Char) : Nat := hexDigits.idxOf digit

theorem readHexDigit_formatHexByte :
    ∀ value : Fin 256, (formatHexByte (UInt8.ofNat value.val)).map readHexDigit = [value.val / 16, value.val % 16] := by
  decide +kernel

theorem formatHexByte_injective : Function.Injective formatHexByte := by
  intro fst snd h
  have hf := readHexDigit_formatHexByte ⟨fst.toNat, fst.toNat_lt⟩
  have hse := readHexDigit_formatHexByte ⟨snd.toNat, snd.toNat_lt⟩
  simp only [UInt8.ofNat_toNat] at hf hse
  rw [h, hse] at hf
  simp only [List.cons.injEq, and_true] at hf
  apply UInt8.toNat_inj.1
  omega

theorem flatMap_formatHexByte_injective : Function.Injective fun bs : List UInt8 => bs.flatMap formatHexByte := by
  intro fst
  induction fst with
  | nil =>
    intro snd h
    cases snd with
    | nil => rfl
    | cons byte snd => simp [formatHexByte] at h
  | cons byte fst ih =>
    intro snd h
    cases snd with
    | nil => simp [formatHexByte] at h
    | cons other snd =>
      simp only [flatMap_cons] at h
      obtain ⟨hb, hr⟩ := append_inj h rfl
      rw [formatHexByte_injective hb, ih hr]

theorem formatHex_injective : Function.Injective formatHex := by
  intro first second h
  apply flatMap_formatHexByte_injective
  simpa [formatHex] using congrArg String.toList h

/-! ### What a run did -/

def TokenOperation.Ends (identity : String) (scope : TokenScope) : TokenOperation → Prop
  | .grant otherIdentity otherScope _ _ _ => otherIdentity = identity ∧ otherScope = scope
  | .revoke otherIdentity otherScope _ =>
    otherIdentity = identity ∧ ∀ requestedScope ∈ otherScope, requestedScope = scope
  | .updateLastUsed _ _ => False
  | .removeEnded _ => False

/-- The secret was granted on `scope` to `identity` until `expiresAt`, and nothing has ended the grant since. -/
def GrantStands (steps : List TokenOperation) (token : ConnectionToken) (identity : String) (scope : TokenScope)
    (expiresAt : Option SystemTime) : Prop :=
  ∃ before issuedAt after, steps = before ++ .grant identity scope issuedAt expiresAt token :: after ∧
    ∀ op ∈ after, ¬op.Ends identity scope

/-- The secret was granted on `scope` to `identity`, and a revocation followed. -/
def GrantRevoked (steps : List TokenOperation) (token : ConnectionToken) (identity : String)
    (scope : TokenScope) : Prop :=
  ∃ before issuedAt expiresAt after, steps = before ++ .grant identity scope issuedAt expiresAt token :: after ∧
    ∃ identity' revokedScope revokedAt, .revoke identity' revokedScope revokedAt ∈ after ∧
      (revoke identity' revokedScope revokedAt).Ends identity scope

theorem grantStands_concat {op : TokenOperation} {token : ConnectionToken} :
    GrantStands (ops ++ [op]) token identity scope expiresAt ↔
      (∃ issuedAt, op = .grant identity scope issuedAt expiresAt token) ∨
        (GrantStands ops token identity scope expiresAt ∧ ¬op.Ends identity scope) := by
  constructor
  · rintro ⟨before, issuedAt, after, hsp, haf⟩
    rcases eq_nil_or_concat after with rfl | ⟨rest, last, rfl⟩
    · obtain ⟨-, hl⟩ := append_inj' hsp rfl
      exact Or.inl ⟨issuedAt, singleton_injective hl⟩
    · rw [concat_eq_append, ← cons_append, ← append_assoc] at hsp
      obtain ⟨rfl, hl⟩ := append_inj' hsp rfl
      obtain rfl := singleton_injective hl
      refine Or.inr ⟨⟨before, issuedAt, rest, rfl, fun other ho => haf other ?_⟩, haf op ?_⟩
      · simp [ho]
      · simp
  · rintro (⟨issuedAt, rfl⟩ | ⟨⟨before, issuedAt, after, rfl, haf⟩, hl⟩)
    · exact ⟨ops, issuedAt, [], rfl, by simp⟩
    · refine ⟨before, issuedAt, after ++ [op], by simp, ?_⟩
      intro other ho
      rcases mem_append.1 ho with ho | ho
      · exact haf other ho
      · rwa [mem_singleton.1 ho]

/-! ### The records of a run -/

variable (sha256 : List UInt8 → List UInt8)

variable {ops : List TokenOperation} {token : ConnectionToken} {identity : String} {scope : TokenScope}
  {expiresAt : Option SystemTime} {store : TokenStore} {record : TokenRecord} {now : SystemTime}

theorem runTokenOperations_concat (ops : List TokenOperation) (op : TokenOperation) :
    runTokenOperations sha256 (ops ++ [op]) = op.apply sha256 (runTokenOperations sha256 ops) := by
  simp [runTokenOperations]

/-- Two records are not of one identity and scope. -/
def DifferentGrants (first second : TokenRecord) : Prop :=
  ¬(first.identity = second.identity ∧ first.scope = second.scope)

theorem apply_pairwise (h : store.tokenRecords.Pairwise DifferentGrants)
    (op : TokenOperation) : (op.apply sha256 store).tokenRecords.Pairwise DifferentGrants := by
  cases op with
  | grant identity scope issuedAt expiresAt token =>
    refine pairwise_append.2 ⟨h.filter _, pairwise_singleton _ _, ?_⟩
    intro kept hk new hnew
    obtain rfl := mem_singleton.1 hnew
    have ho := (mem_filter.1 hk).2
    simpa [DifferentGrants, imp_iff_not_or] using ho
  | revoke identity scope now =>
    refine List.Pairwise.map _ ?_ h
    intro fst snd hdiff
    unfold DifferentGrants at hdiff ⊢
    split_ifs <;> exact hdiff
  | updateLastUsed tokenHash usedAt =>
    refine List.Pairwise.map _ ?_ h
    intro fst snd hdiff
    unfold DifferentGrants at hdiff ⊢
    split_ifs <;> exact hdiff
  | removeEnded now => exact h.filter _

theorem run_pairwise (ops : List TokenOperation) :
    (runTokenOperations sha256 ops).tokenRecords.Pairwise DifferentGrants := by
  induction ops using List.reverseRecOn with
  | nil => exact List.Pairwise.nil
  | append_singleton ops op ih =>
    rw [runTokenOperations_concat]
    exact apply_pairwise sha256 ih op

theorem keeps_iff_not_ends (issuedAt : SystemTime) (expiresAt : Option SystemTime) (token : ConnectionToken) :
    (decide (record.identity ≠ identity) || decide (record.scope ≠ scope)) = true ↔
      ¬(grant identity scope issuedAt expiresAt token).Ends record.identity record.scope := by
  rw [Bool.or_eq_true, decide_eq_true_iff, decide_eq_true_iff, TokenOperation.Ends, not_and_or]
  exact or_congr ne_comm ne_comm

theorem isRevokedBy_iff_ends {scope : Option TokenScope} (now : SystemTime) (hsd : record.revokedAt = none) :
    isRevokedBy identity scope record = true ↔ (revoke identity scope now).Ends record.identity record.scope := by
  rw [TokenOperation.Ends, eq_comm (a := identity)]
  cases scope <;> simp [isRevokedBy, hsd]

theorem run_sound (ops : List TokenOperation) (hm : record ∈ (runTokenOperations sha256 ops).tokenRecords)
    (hsd : record.revokedAt = none) :
    ∃ token, record.tokenHash = hashConnectionToken sha256 token ∧
      GrantStands ops token record.identity record.scope record.expiresAt := by
  induction ops using List.reverseRecOn generalizing record with
  | nil => exact absurd hm not_mem_nil
  | append_singleton ops op ih =>
    rw [runTokenOperations_concat] at hm
    simp only [grantStands_concat]
    cases op with
    | grant identity scope issuedAt expiresAt token =>
      rcases mem_append.1 hm with hk | hnew
      · obtain ⟨hold, ho⟩ := mem_filter.1 hk
        obtain ⟨granted, hhash, hgrant⟩ := ih hold hsd
        exact ⟨granted, hhash, Or.inr ⟨hgrant, (keeps_iff_not_ends issuedAt expiresAt token).1 ho⟩⟩
      · obtain rfl := mem_singleton.1 hnew
        exact ⟨token, rfl, Or.inl ⟨issuedAt, rfl⟩⟩
    | revoke identity scope now =>
      obtain ⟨old, hold, rfl⟩ := List.mem_map.1 hm
      by_cases hrevoked : isRevokedBy identity scope old = true
      · rw [if_pos hrevoked] at hsd
        exact absurd hsd (some_ne_none _)
      · rw [if_neg hrevoked] at hsd ⊢
        obtain ⟨granted, hhash, hgrant⟩ := ih hold hsd
        exact ⟨granted, hhash, Or.inr ⟨hgrant, mt (isRevokedBy_iff_ends now hsd).2 hrevoked⟩⟩
    | updateLastUsed tokenHash usedAt =>
      obtain ⟨old, hold, rfl⟩ := List.mem_map.1 hm
      have hrevoked : old.revokedAt = none := by
        split_ifs at hsd <;> exact hsd
      obtain ⟨granted, hhash, hgrant⟩ := ih hold hrevoked
      split_ifs <;> exact ⟨granted, hhash, Or.inr ⟨hgrant, not_false⟩⟩
    | removeEnded now =>
      obtain ⟨granted, hhash, hgrant⟩ := ih (mem_filter.1 hm).1 hsd
      exact ⟨granted, hhash, Or.inr ⟨hgrant, not_false⟩⟩

structure HoldsGrant (record : TokenRecord) (token : ConnectionToken) (identity : String) (scope : TokenScope)
    (expiresAt : Option SystemTime) : Prop where
  identity_eq : record.identity = identity
  scope_eq : record.scope = scope
  expiresAt_eq : record.expiresAt = expiresAt
  tokenHash_eq : record.tokenHash = hashConnectionToken sha256 token
  revokedAt_eq : record.revokedAt = none

theorem exists_expired_of_isEndedRecord (hsd : record.revokedAt = none) (hended : isEndedRecord now record = true) :
    ∃ expiry ∈ record.expiresAt, expiry ≤ now := by
  cases hexpires : record.expiresAt with
  | none => simp [isEndedRecord, TokenRecord.findEndedAt, hsd, hexpires] at hended
  | some expiry =>
    refine ⟨expiry, rfl, ?_⟩
    by_contra hlr
    simp [isEndedRecord, TokenRecord.findEndedAt, hsd, hexpires, Option.filter, hlr] at hended

theorem run_complete (ops : List TokenOperation) {scope : TokenScope}
    (h : GrantStands ops token identity scope expiresAt) :
    (∃ record ∈ (runTokenOperations sha256 ops).tokenRecords, HoldsGrant sha256 record token identity scope expiresAt) ∨
      ∃ expiry ∈ expiresAt, ∃ op ∈ ops, expiry ≤ op.time := by
  induction ops using List.reverseRecOn with
  | nil =>
    obtain ⟨before, issuedAt, after, hsp, -⟩ := h
    exact absurd hsp (by simp)
  | append_singleton ops op ih =>
    rw [runTokenOperations_concat]
    rcases grantStands_concat.1 h with ⟨issuedAt, rfl⟩ | ⟨hgrant, hends⟩
    · exact Or.inl ⟨_, mem_append_right _ (mem_singleton_self _), ⟨rfl, rfl, rfl, rfl, rfl⟩⟩
    · rcases ih hgrant with ⟨record, hm, hhl⟩ | ⟨expiry, hexpiry, earlier, her, htime⟩
      · cases op with
        | grant otherIdentity otherScope issuedAt otherExpiry otherToken =>
          refine Or.inl ⟨record, mem_append_left _ (mem_filter.2 ⟨hm, ?_⟩), hhl⟩
          rw [← hhl.identity_eq, ← hhl.scope_eq] at hends
          exact (keeps_iff_not_ends issuedAt otherExpiry otherToken).2 hends
        | revoke otherIdentity otherScope now =>
          refine Or.inl ⟨record, List.mem_map.2 ⟨record, hm, if_neg ?_⟩, hhl⟩
          rw [← hhl.identity_eq, ← hhl.scope_eq] at hends
          exact mt (isRevokedBy_iff_ends now hhl.revokedAt_eq).1 hends
        | updateLastUsed tokenHash usedAt =>
          refine Or.inl ⟨_, List.mem_map.2 ⟨record, hm, rfl⟩, ?_⟩
          obtain ⟨hidentity, hscope, hexpires, hhash, hrevoked⟩ := hhl
          split_ifs <;> exact ⟨hidentity, hscope, hexpires, hhash, hrevoked⟩
        | removeEnded now =>
          by_cases hended : isEndedRecord now record = true
          · obtain ⟨expiry, hexpiry, hle⟩ := exists_expired_of_isEndedRecord hhl.revokedAt_eq hended
            exact Or.inr ⟨expiry, hhl.expiresAt_eq ▸ hexpiry, .removeEnded now, by simp, hle⟩
          · exact Or.inl ⟨record, mem_filter.2 ⟨hm, by simpa using hended⟩, hhl⟩
      · exact Or.inr ⟨expiry, hexpiry, earlier, mem_append_left _ her, htime⟩

/-! ### The answers -/

theorem foldl_lastMatch {α β : Type} (isMatch : α → Bool) (read : α → β) (values : List α) :
    values.foldl (fun found value => if isMatch value then some (read value) else found) none =
      (values.filter isMatch).getLast?.map read := by
  induction values using List.reverseRecOn with
  | nil => rfl
  | append_singleton values value ih =>
    rw [List.foldl_append, ih, filter_append]
    by_cases hmatch : isMatch value = true <;> simp [hmatch]

/-- The secret's hash is in the record, and the record stands. -/
def Accepts (token : ConnectionToken) (now : SystemTime) (record : TokenRecord) : Bool :=
  decide (record.tokenHash = hashConnectionToken sha256 token) && record.isActiveAt now

theorem findTokenScope_eq (store : TokenStore) (token : ConnectionToken) (now : SystemTime) :
    store.findTokenScope sha256 token now =
      (store.tokenRecords.filter (Accepts sha256 token now)).getLast?.map (·.scope) :=
  foldl_lastMatch _ _ _

theorem accepts_iff :
    Accepts sha256 token now record = true ↔
      record.tokenHash = hashConnectionToken sha256 token ∧ record.revokedAt = none ∧
        ∀ expiry ∈ record.expiresAt, now < expiry := by
  cases hexpires : record.expiresAt <;> simp [Accepts, TokenRecord.isActiveAt, isTokenActiveAt, hexpires]

theorem exists_of_findTokenScope {now : SystemTime} (h : store.findTokenScope sha256 token now = some scope) :
    ∃ record ∈ store.tokenRecords, Accepts sha256 token now record = true ∧ record.scope = scope := by
  rw [findTokenScope_eq] at h
  obtain ⟨record, hl, hscope⟩ := map_eq_some_iff.1 h
  obtain ⟨hm, hacc⟩ := mem_filter.1 (mem_of_getLast? hl)
  exact ⟨record, hm, hacc, hscope⟩

theorem findTokenScope_ne_none {now : SystemTime} (hm : record ∈ store.tokenRecords)
    (hacc : Accepts sha256 token now record = true) :
    ∃ scope, store.findTokenScope sha256 token now = some scope := by
  have hne : store.tokenRecords.filter (Accepts sha256 token now) ≠ [] :=
    ne_nil_of_mem (mem_filter.2 ⟨hm, hacc⟩)
  rw [findTokenScope_eq, List.getLast?_eq_some_getLast hne]
  exact ⟨_, rfl⟩

theorem findTokenScope_removeEnded (store : TokenStore) (token : ConnectionToken) {later : SystemTime}
    (hle : now ≤ later) :
    (store.removeEndedTokenRecords now).findTokenScope sha256 token later =
      store.findTokenScope sha256 token later := by
  rw [findTokenScope_eq, findTokenScope_eq, removeEndedTokenRecords, List.filter_filter]
  congr 2
  apply filter_congr
  intro record _
  rw [Bool.and_eq_left_iff_imp, Bool.not_eq_true']
  intro hacc
  obtain ⟨-, hrevoked, hexpires⟩ := (accepts_iff sha256).1 hacc
  rw [Bool.eq_false_iff]
  intro hended
  obtain ⟨expiry, hexpiry, hexpired⟩ := exists_expired_of_isEndedRecord hrevoked hended
  exact lt_irrefl _ ((hexpires expiry hexpiry).trans_le (hexpired.trans hle))

/-- The secrets a run handed out, oldest first. -/
def listGrantedSecrets (steps : List TokenOperation) : List ConnectionToken :=
  steps.filterMap grantedSecret

theorem grant_unique {before after before' otherAfter : List TokenOperation} {op other : TokenOperation}
    (hfresh : (listGrantedSecrets ops).Nodup) (hsp : ops = before ++ op :: after)
    (ho : ops = before' ++ other :: otherAfter) (hsecret : op.grantedSecret = some token)
    (hotherSecret : other.grantedSecret = some token) : op = other ∧ after = otherAfter := by
  subst hsp
  induction before generalizing before' with
  | nil =>
    cases before' with
    | nil => exact List.cons.inj ho
    | cons fst before' =>
      obtain ⟨rfl, rfl⟩ := List.cons.inj ho
      simp [listGrantedSecrets, hsecret, hotherSecret] at hfresh
  | cons fst before ih =>
    cases before' with
    | nil =>
      obtain ⟨rfl, rfl⟩ := List.cons.inj ho
      simp [listGrantedSecrets, hsecret, hotherSecret] at hfresh
    | cons otherFirst before' =>
      obtain ⟨rfl, hr⟩ := List.cons.inj ho
      refine ih ?_ hr
      unfold listGrantedSecrets at hfresh ⊢
      rw [cons_append, filterMap_cons] at hfresh
      split at hfresh
      · exact hfresh
      · exact (nodup_cons.1 hfresh).2

/-- `sha256` tells the presented secret from every secret the run handed out. -/
def NoCollision (steps : List TokenOperation) (shown : ConnectionToken) : Prop :=
  ∀ granted ∈ listGrantedSecrets steps,
    sha256 granted.secret.toUTF8.toList = sha256 shown.secret.toUTF8.toList → granted = shown

theorem GrantStands.mem_listGrantedSecrets {identity : String} (h : GrantStands ops token identity scope expiresAt) :
    token ∈ listGrantedSecrets ops := by
  obtain ⟨before, issuedAt, after, rfl, -⟩ := h
  simp [listGrantedSecrets, grantedSecret]

theorem grantStands_of_accepts {shown : ConnectionToken} (hcollision : NoCollision sha256 ops shown)
    (hm : record ∈ (runTokenOperations sha256 ops).tokenRecords) (hacc : Accepts sha256 shown now record = true) :
    GrantStands ops shown record.identity record.scope record.expiresAt := by
  obtain ⟨hhash, hrevoked, -⟩ := (accepts_iff sha256).1 hacc
  obtain ⟨granted, hgrt, hsd⟩ := run_sound sha256 ops hm hrevoked
  have hs : granted = shown :=
    hcollision granted hsd.mem_listGrantedSecrets (formatHex_injective (hgrt.symm.trans hhash))
  rwa [hs] at hsd

/-- **The store authorizes exactly the standing grants.** After any run that hands out distinct secrets, the store holds
at most one record for each identity and scope. A presented secret reaches a scope exactly when it was granted on that
scope, nothing has replaced or revoked the grant since, and it has not expired; a secret granted before a revocation of
its grant is never accepted again; and the clean-up changes no answer from its time on. -/
theorem remoteTokens_authorize (steps : List TokenOperation) (hfresh : (listGrantedSecrets steps).Nodup) :
    (runTokenOperations sha256 steps).tokenRecords.Pairwise DifferentGrants ∧
    ∀ shown : ConnectionToken, NoCollision sha256 steps shown →
      (∀ now scope, (∀ operation ∈ steps, operation.time ≤ now) →
        ((runTokenOperations sha256 steps).findTokenScope sha256 shown now = some scope ↔
          ∃ identity expiresAt, GrantStands steps shown identity scope expiresAt ∧
            ∀ expiry ∈ expiresAt, now < expiry)) ∧
      (∀ now identity scope, GrantRevoked steps shown identity scope →
        (runTokenOperations sha256 steps).findTokenScope sha256 shown now = none) ∧
      ∀ now later, now ≤ later →
        ((runTokenOperations sha256 steps).removeEndedTokenRecords now).findTokenScope sha256 shown later =
          (runTokenOperations sha256 steps).findTokenScope sha256 shown later := by
  refine ⟨run_pairwise sha256 steps, fun shown hcollision => ⟨?_, ?_, ?_⟩⟩
  · intro now scope htimes
    constructor
    · intro hfind
      obtain ⟨record, hmem, hacc, rfl⟩ := exists_of_findTokenScope sha256 hfind
      exact ⟨record.identity, record.expiresAt, grantStands_of_accepts sha256 hcollision hmem hacc,
        ((accepts_iff sha256).1 hacc).2.2⟩
    · rintro ⟨identity, expiresAt, hstands, hexpires⟩
      have hholds : ∃ record ∈ (runTokenOperations sha256 steps).tokenRecords,
          HoldsGrant sha256 record shown identity scope expiresAt := by
        rcases run_complete sha256 steps hstands with hholds | ⟨expiry, hexpiry, operation, hmem, hexpired⟩
        · exact hholds
        · exact absurd ((hexpires expiry hexpiry).trans_le (hexpired.trans (htimes operation hmem))) (lt_irrefl _)
      obtain ⟨record, hmem, hholds⟩ := hholds
      have hacc : Accepts sha256 shown now record = true :=
        (accepts_iff sha256).2 ⟨hholds.tokenHash_eq, hholds.revokedAt_eq, hholds.expiresAt_eq ▸ hexpires⟩
      obtain ⟨found, hfind⟩ := findTokenScope_ne_none sha256 hmem hacc
      obtain ⟨other, hother, hotherAccepts, rfl⟩ := exists_of_findTokenScope sha256 hfind
      -- the record found holds a grant of the same secret, so it is the same grant
      obtain ⟨before, issuedAt, after, hsplit, -⟩ := hstands
      obtain ⟨before', otherIssuedAt, otherAfter, hotherSplit, -⟩ :=
        grantStands_of_accepts sha256 hcollision hother hotherAccepts
      obtain ⟨hgrant, -⟩ := grant_unique hfresh hsplit hotherSplit rfl rfl
      rw [hfind, (grant.inj hgrant).2.1]
  · rintro now identity scope ⟨before, issuedAt, expiresAt, after, hsplit, identity', revokedScope,
      revokedAt, hrevoke, hends⟩
    by_contra hfound
    obtain ⟨found, hfind⟩ := ne_none_iff_exists'.1 hfound
    obtain ⟨record, hmem, hacc, -⟩ := exists_of_findTokenScope sha256 hfind
    obtain ⟨before', otherIssuedAt, otherAfter, hotherSplit, hafter⟩ :=
      grantStands_of_accepts sha256 hcollision hmem hacc
    obtain ⟨hgrant, rfl⟩ := grant_unique hfresh hsplit hotherSplit rfl rfl
    obtain ⟨hidentity, hscope, -⟩ := grant.inj hgrant
    rw [hidentity, hscope] at hends
    exact hafter _ hrevoke hends
  · intro now later hle
    exact findTokenScope_removeEnded sha256 _ shown hle

/-- The two secrets of the run below, and their sha256. -/
def risingSecret : ConnectionToken := ⟨"0123456789abcdef0123456789abcdef0123456789abcdef0123456789abcdef"⟩

def fallingSecret : ConnectionToken := ⟨"fedcba9876543210fedcba9876543210fedcba9876543210fedcba9876543210"⟩

def sha256OfSecrets (bytes : List UInt8) : List UInt8 :=
  if bytes = risingSecret.secret.toUTF8.toList then
    [0xa8, 0xae, 0x6e, 0x6e, 0xe9, 0x29, 0xab, 0xea, 0x3a, 0xfc, 0xfc, 0x52, 0x58, 0xc8, 0xcc, 0xd6,
      0xf8, 0x52, 0x73, 0xe0, 0xd4, 0x62, 0x6d, 0x26, 0xc7, 0x27, 0x9f, 0x32, 0x50, 0xf7, 0x7c, 0x8e]
  else if bytes = fallingSecret.secret.toUTF8.toList then
    [0x7b, 0x9d, 0x07, 0xf2, 0x40, 0x4b, 0x10, 0x2b, 0x3c, 0x62, 0xfe, 0xde, 0x02, 0x60, 0x97, 0xc5,
      0xab, 0x81, 0x66, 0x8f, 0x18, 0x41, 0x4a, 0xbd, 0x8e, 0xa5, 0x60, 0xce, 0xcb, 0x00, 0x80, 0x06]
  else []

/-- A host-wide grant that is revoked, and a session's grant that still stands after the clean-up. -/
def revokedHostRun : List TokenOperation :=
  [.grant "alice" .hostWide 0 none risingSecret, .grant "alice" (.session ⟨7⟩) 1 (some 100) fallingSecret,
    .revoke "alice" (some .hostWide) 10, .removeEnded 20]

theorem remoteTokens_authorize_revokedHostRun :
    (runTokenOperations sha256OfSecrets revokedHostRun).findTokenScope sha256OfSecrets fallingSecret 50 =
        some (.session ⟨7⟩) ∧
      ∀ now, (runTokenOperations sha256OfSecrets revokedHostRun).findTokenScope sha256OfSecrets risingSecret
        now = none := by
  have hfresh : (listGrantedSecrets revokedHostRun).Nodup := by decide
  have hrising : NoCollision sha256OfSecrets revokedHostRun risingSecret := by
    unfold NoCollision
    decide +kernel
  have hfalling : NoCollision sha256OfSecrets revokedHostRun fallingSecret := by
    unfold NoCollision
    decide +kernel
  have hstored := remoteTokens_authorize sha256OfSecrets revokedHostRun hfresh
  constructor
  · refine ((hstored.2 fallingSecret hfalling).1 50 (.session ⟨7⟩) (by decide)).2 ⟨"alice", some 100, ?_, by decide⟩
    refine ⟨[.grant "alice" .hostWide 0 none risingSecret], 1, _, rfl, ?_⟩
    simp [TokenOperation.Ends]
  · intro now
    refine (hstored.2 risingSecret hrising).2.1 now "alice" .hostWide ⟨[], 0, none, _, rfl, ?_⟩
    exact ⟨"alice", some .hostWide, 10, by simp, rfl, by simp⟩

end Koshi.Ipc
