import Fullmac.Ap.Elements
import Fullmac.Ap.Mlme

/-!
# The security element of an association request

Reference: `host/ap/common/wpa_common.c`, `wpa_parse_wpa_ie_rsn` and `wpa_parse_wpa_ie_wpa`;
`host/ap/wpa_auth_ie.c`, `wpa_validate_wpa_ie`; `host/include/priv/ssv_common.h`.

An RSN or WPA element lists cipher suites: one for the group, then a counted list for pairwise keys,
then a counted list for key management. Both parsers keep a position and the number of bytes that
are left, and look at the second before they move the first; so they stay inside the element
(`inside_wpaValidateWpaIe`).
-/

namespace Fullmac.Ap

open Bytes (Mem slice getU16)
open Reads

/-! ## Suites -/

/-- `WPA_CIPHER_NONE`, `WPA_CIPHER_WEP40`, `WPA_CIPHER_WEP104`, `WPA_CIPHER_TKIP` and
`WPA_CIPHER_CCMP`. -/
inductive Cipher
  | none | wep40 | wep104 | tkip | ccmp
deriving DecidableEq, Repr

/-- The bit of a cipher. -/
def Cipher.bit : Cipher → ℕ
  | .none => 1
  | .wep40 => 2
  | .wep104 => 4
  | .tkip => 8
  | .ccmp => 16

/-- `WPA_KEY_MGMT_IEEE8021X`. -/
def keyMgmtIeee8021x : ℕ := 1

/-- `WPA_KEY_MGMT_PSK`. -/
def keyMgmtPsk : ℕ := 2

/-- `WPA_KEY_MGMT_WPA_NONE`. -/
def keyMgmtWpaNone : ℕ := 16

/-- The bit that a table gives to a selector: an OUI and a type. -/
def selectorBits (oui : List UInt8) (table : List (UInt8 × ℕ)) (s : List UInt8) : ℕ :=
  ((table.find? fun t => oui ++ [t.1] = s).map (·.2)).getD 0

/-- The OUI of the RSN selectors. -/
def ouiRsn : List UInt8 := [0x00, 0x0f, 0xac]

/-- The types of the cipher suites, which are the same for RSN and WPA. -/
def cipherTypes : List (UInt8 × ℕ) :=
  [(0, Cipher.none.bit), (1, Cipher.wep40.bit), (2, Cipher.tkip.bit), (4, Cipher.ccmp.bit),
    (5, Cipher.wep104.bit)]

/-- `rsn_selector_to_bitfield`. -/
def rsnSelectorToBitfield : List UInt8 → ℕ := selectorBits ouiRsn cipherTypes

/-- `rsn_key_mgmt_to_bitfield`. -/
def rsnKeyMgmtToBitfield : List UInt8 → ℕ :=
  selectorBits ouiRsn [(1, keyMgmtIeee8021x), (2, keyMgmtPsk)]

/-- `wpa_selector_to_bitfield`. -/
def wpaSelectorToBitfield : List UInt8 → ℕ := selectorBits ouiMicrosoft cipherTypes

/-- `wpa_key_mgmt_to_bitfield`. -/
def wpaKeyMgmtToBitfield : List UInt8 → ℕ :=
  selectorBits ouiMicrosoft [(1, keyMgmtIeee8021x), (2, keyMgmtPsk), (0, keyMgmtWpaNone)]

/-! ## Parsers -/

/-- `struct wpa_ie_data`, as far as it is looked at. -/
structure WpaIeData where
  groupCipher : ℕ
  pairwiseCipher : ℕ
  keyMgmt : ℕ
deriving DecidableEq, Repr

/-- Where a parser stands: `pos` and `left`. -/
structure Cursor where
  pos : ℕ
  left : ℕ
deriving DecidableEq, Repr

/-- Move on. -/
def Cursor.skip (c : Cursor) (n : ℕ) : Cursor := ⟨c.pos + n, c.left - n⟩

/-- The group cipher suite, or the default if nothing is left. -/
def readGroup (toBits : List UInt8 → ℕ) (dflt : ℕ) (c : Cursor) : Reads (Option (ℕ × Cursor)) :=
  if 4 ≤ c.left then do
    let s ← readSlice c.pos 4
    pure (some (toBits s, c.skip 4))
  else if 0 < c.left then pure none
  else pure (some (dflt, c))

/-- The loop over `count` selectors. -/
def readSelectors (toBits : List UInt8 → ℕ) : ℕ → ℕ → Reads ℕ
  | 0, _ => pure 0
  | count + 1, pos => do
    let s ← readSlice pos 4
    let bits ← readSelectors toBits count (pos + 4)
    pure (toBits s ||| bits)

/-- A counted list of selectors, or the default if nothing is left. -/
def readSuites (toBits : List UInt8 → ℕ) (dflt : ℕ) (c : Cursor) : Reads (Option (ℕ × Cursor)) :=
  if 2 ≤ c.left then do
    let count ← readU16 c.pos
    if count = 0 ∨ (c.skip 2).left < count * 4 then pure none
    else do
      let bits ← readSelectors toBits count (c.skip 2).pos
      pure (some (bits, (c.skip 2).skip (count * 4)))
  else if c.left = 1 then pure none
  else pure (some (dflt, c))

/-- What RSN and WPA elements have in common behind their headers; the capabilities at the end are
read, and not looked at. -/
def readAllSuites (cipherBits keyBits : List UInt8 → ℕ) (dflt : Cipher) (c : Cursor) :
    Reads (Option (WpaIeData × Cursor)) :=
  (readGroup cipherBits dflt.bit c).bindSome fun g =>
    (readSuites cipherBits dflt.bit g.2).bindSome fun p =>
      (readSuites keyBits keyMgmtIeee8021x p.2).bindSome fun k =>
        if 2 ≤ k.2.left then do
          let _ ← readU16 k.2.pos
          pure (some (⟨g.1, p.1, k.1⟩, k.2.skip 2))
        else pure (some (⟨g.1, p.1, k.1⟩, k.2))

/-- The list of PMKIDs at the end of an RSN element must fit. -/
def checkPmkid (r : WpaIeData × Cursor) : Reads (Option WpaIeData) :=
  if 2 ≤ r.2.left then do
    let numPmkid ← readU16 r.2.pos
    if (r.2.skip 2).left < numPmkid * 16 then pure none else pure (some r.1)
  else pure (some r.1)

/-- `wpa_parse_wpa_ie_rsn`. -/
def wpaParseWpaIeRsn (rsnIe rsnIeLen : ℕ) : Reads (Option WpaIeData) :=
  if rsnIeLen < 4 then pure none
  else do
    let elemId ← read rsnIe
    if elemId ≠ 48 then pure none
    else do
      let len ← read (rsnIe + 1)
      if len.toNat ≠ rsnIeLen - 2 then pure none
      else do
        let version ← readU16 (rsnIe + 2)
        if version ≠ 1 then pure none
        else
          (readAllSuites rsnSelectorToBitfield rsnKeyMgmtToBitfield .ccmp
            ⟨rsnIe + 4, rsnIeLen - 4⟩).bindSome checkPmkid

/-- `wpa_parse_wpa_ie_wpa`. It skips six bytes of a header of eight, so that the version is taken
for the beginning of the group cipher suite. -/
def wpaParseWpaIeWpa (wpaIe wpaIeLen : ℕ) : Reads (Option WpaIeData) :=
  if wpaIeLen = 0 then pure none
  else
    (readAllSuites wpaSelectorToBitfield wpaKeyMgmtToBitfield .tkip
      ⟨wpaIe + 6, wpaIeLen - 6⟩).bindSome fun r => pure (some r.1)

/-- `struct wpa_auth_config`, and whether there is room for a copy of the element (`sm->wpa_ie`). -/
structure WpaAuthConfig where
  wpa : ℕ
  wpaGroup : ℕ
  wpaKeyMgmt : ℕ
  wpaPairwise : ℕ
  rsnPairwise : ℕ
  roomForIe : Bool

/-- `WPA_PROTO_RSN` is in `conf->wpa`. -/
def WpaAuthConfig.protoRsn (conf : WpaAuthConfig) : Bool := conf.wpa.testBit 1

/-- `WPA_PROTO_WPA` is in `conf->wpa`. -/
def WpaAuthConfig.protoWpa (conf : WpaAuthConfig) : Bool := conf.wpa.testBit 0

/-- The second half of `wpa_validate_wpa_ie`: what the element says against what is configured, with
the status that `check_assoc_ies` makes of the result. -/
def checkWpaIeData (conf : WpaAuthConfig) (rsn : Bool) (wpaIe wpaIeLen : ℕ) :
    Option WpaIeData → Reads Status
  | none => pure .invalidIe
  | some data =>
    if data.groupCipher ≠ conf.wpaGroup then pure .invalidGroupCipher
    else if data.keyMgmt &&& conf.wpaKeyMgmt = 0 then pure .invalidAkmp
    else if data.pairwiseCipher &&& (if rsn then conf.rsnPairwise else conf.wpaPairwise) = 0 then
      pure .invalidPairwiseCipher
    else if !conf.roomForIe then pure .unspecifiedFailure
    else do
      let _ ← readSlice wpaIe wpaIeLen
      pure .success

/-- `wpa_validate_wpa_ie`. -/
def wpaValidateWpaIe (conf : WpaAuthConfig) (wpaIe wpaIeLen : ℕ) : Reads Status :=
  if wpaIeLen < 1 then pure .invalidIe
  else do
    let first ← read wpaIe
    if first = 48 then
      if !conf.protoRsn then pure .invalidIe
      else wpaParseWpaIeRsn wpaIe wpaIeLen >>= checkWpaIeData conf true wpaIe wpaIeLen
    else if !conf.protoWpa then pure .invalidIe
    else wpaParseWpaIeWpa wpaIe wpaIeLen >>= checkWpaIeData conf false wpaIe wpaIeLen

/-! ## What is read -/

section Inside

variable {n : ℕ} {m : Mem} {c : Cursor} {toBits : List UInt8 → ℕ} {dflt : ℕ}

/-- What is left is inside. -/
def Cursor.Within (n : ℕ) (c : Cursor) : Prop := c.pos + c.left ≤ n

theorem Cursor.Within.skip (h : c.Within n) {k : ℕ} (hk : k ≤ c.left) : (c.skip k).Within n := by
  have hc : c.pos + c.left ≤ n := h
  change c.pos + k + (c.left - k) ≤ n
  omega

/-- A step reads inside and leaves the cursor inside. -/
def StaysWithin {α : Type} (n : ℕ) (m : Mem) (p : Reads (Option (α × Cursor))) : Prop :=
  Inside n m p ∧ ∀ r, val m p = some r → r.2.Within n

/-- Steps one behind the other. -/
theorem StaysWithin.inside_bindSome {α β : Type} {p : Reads (Option (α × Cursor))}
    {f : α × Cursor → Reads (Option β)} (h : StaysWithin n m p)
    (hf : ∀ r, r.2.Within n → Inside n m (f r)) : Inside n m (p.bindSome f) :=
  Reads.inside_bindSome.mpr ⟨h.1, fun r hr => hf r (h.2 r hr)⟩

theorem StaysWithin.bindSome {α β : Type} {p : Reads (Option (α × Cursor))}
    {f : α × Cursor → Reads (Option (β × Cursor))} (h : StaysWithin n m p)
    (hf : ∀ r, r.2.Within n → StaysWithin n m (f r)) : StaysWithin n m (p.bindSome f) := by
  refine ⟨h.inside_bindSome fun r hr => (hf r hr).1, fun r' hr' => ?_⟩
  rw [val_bindSome, Option.bind_eq_some_iff] at hr'
  obtain ⟨r, hr, hr'⟩ := hr'
  exact (hf r (h.2 r hr)).2 r' hr'

theorem readGroup_staysWithin (h : c.Within n) : StaysWithin n m (readGroup toBits dflt c) := by
  have hc : c.pos + c.left ≤ n := h
  constructor
  · simp only [readGroup, inside_ite, inside_bind, inside_readSlice, inside_pure, implies_true,
      and_true]
    exact fun h4 => .inr (by omega)
  · intro r hr
    rw [readGroup] at hr
    split_ifs at hr with h4 h0
    · rw [val_bind, val_pure, Option.some.injEq] at hr
      subst hr
      exact h.skip h4
    · exact absurd hr (by simp)
    · rw [val_pure, Option.some.injEq] at hr
      subst hr
      exact h

theorem inside_readSelectors {count pos : ℕ} (h : pos + count * 4 ≤ n) :
    Inside n m (readSelectors toBits count pos) := by
  induction count generalizing pos with
  | zero => exact inside_pure n m _
  | succ count ih =>
    simp only [readSelectors, inside_bind, inside_readSlice, inside_pure, and_true]
    exact ⟨.inr (by omega), ih (by omega)⟩

theorem readSuites_staysWithin (h : c.Within n) : StaysWithin n m (readSuites toBits dflt c) := by
  have hc : c.pos + c.left ≤ n := h
  constructor
  · simp only [readSuites, inside_ite, inside_bind, inside_readU16, inside_pure, implies_true,
      and_true, true_and, not_or, Nat.not_lt]
    intro h2
    refine ⟨by omega, fun hfit => inside_readSelectors ?_⟩
    have hskip : (c.skip 2).pos + (c.skip 2).left ≤ n := h.skip h2
    omega
  · intro r hr
    rw [readSuites] at hr
    split_ifs at hr with h2 h1
    · rw [val_bind, val_ite] at hr
      split_ifs at hr with hfit
      · exact absurd hr (by simp)
      · rw [val_bind, val_pure, Option.some.injEq] at hr
        subst hr
        exact (h.skip h2).skip (by omega)
    · exact absurd hr (by simp)
    · rw [val_pure, Option.some.injEq] at hr
      subst hr
      exact h

theorem readAllSuites_staysWithin (cipherBits keyBits : List UInt8 → ℕ) (dflt : Cipher)
    (h : c.Within n) : StaysWithin n m (readAllSuites cipherBits keyBits dflt c) := by
  refine (readGroup_staysWithin h).bindSome fun g hg => ?_
  refine (readSuites_staysWithin hg).bindSome fun p hp => ?_
  refine (readSuites_staysWithin hp).bindSome fun k hk => ?_
  have hk' : k.2.pos + k.2.left ≤ n := hk
  constructor
  · simp only [inside_ite, inside_bind, inside_readU16, inside_pure, implies_true, and_true]
    omega
  · intro r hr
    split_ifs at hr with h2
    · rw [val_bind, val_pure, Option.some.injEq] at hr
      subst hr
      exact hk.skip h2
    · rw [val_pure, Option.some.injEq] at hr
      subst hr
      exact hk

theorem inside_wpaParseWpaIeRsn {rsnIe rsnIeLen : ℕ} (h : rsnIe + rsnIeLen ≤ n) :
    Inside n m (wpaParseWpaIeRsn rsnIe rsnIeLen) := by
  simp only [wpaParseWpaIeRsn, inside_ite, inside_bind, inside_read, inside_readU16, inside_pure,
    implies_true, true_and]
  refine fun h4 => ⟨by omega, fun _ => ⟨by omega, fun _ => ⟨by omega, fun _ => ?_⟩⟩⟩
  have hc : Cursor.Within n ⟨rsnIe + 4, rsnIeLen - 4⟩ := by
    change rsnIe + 4 + (rsnIeLen - 4) ≤ n
    omega
  refine (readAllSuites_staysWithin _ _ _ hc).inside_bindSome fun r hr => ?_
  have hr' : r.2.pos + r.2.left ≤ n := hr
  simp only [checkPmkid, inside_ite, inside_bind, inside_readU16, inside_pure, implies_true,
    and_true]
  omega

theorem inside_wpaParseWpaIeWpa {wpaIe wpaIeLen : ℕ} (h6 : 6 ≤ wpaIeLen)
    (h : wpaIe + wpaIeLen ≤ n) : Inside n m (wpaParseWpaIeWpa wpaIe wpaIeLen) := by
  rw [wpaParseWpaIeWpa, if_neg (by omega)]
  have hc : Cursor.Within n ⟨wpaIe + 6, wpaIeLen - 6⟩ := by
    change wpaIe + 6 + (wpaIeLen - 6) ≤ n
    omega
  exact (readAllSuites_staysWithin _ _ _ hc).inside_bindSome fun r _ => inside_pure n m _

theorem inside_checkWpaIeData {conf : WpaAuthConfig} {rsn : Bool} {wpaIe wpaIeLen : ℕ}
    (h : wpaIe + wpaIeLen ≤ n) (data : Option WpaIeData) :
    Inside n m (checkWpaIeData conf rsn wpaIe wpaIeLen data) := by
  cases data with
  | none => exact inside_pure n m _
  | some data =>
    simp only [checkWpaIeData, inside_ite, inside_bind, inside_readSlice, inside_pure,
      implies_true, and_true, true_and]
    exact fun _ _ _ _ => .inr h

/-- The check of a security element stays inside the element. -/
theorem inside_wpaValidateWpaIe {conf : WpaAuthConfig} {wpaIe wpaIeLen : ℕ}
    (h6 : m wpaIe = 48 ∨ 6 ≤ wpaIeLen) (h : wpaIe + wpaIeLen ≤ n) :
    Inside n m (wpaValidateWpaIe conf wpaIe wpaIeLen) := by
  simp only [wpaValidateWpaIe, inside_ite, inside_bind, inside_read, inside_pure, implies_true,
    val_read, true_and, inside_checkWpaIeData h, and_true]
  refine fun h1 => ⟨by omega, fun _ _ => inside_wpaParseWpaIeRsn h, fun hrsn _ => ?_⟩
  exact inside_wpaParseWpaIeWpa (h6.resolve_left hrsn) h

end Inside

end Fullmac.Ap
