import FactorSeal.Lib.Except
import FactorSeal.Vault.Basic

/-! # Storage keys tell addresses apart

`storage_key` hashes a length-prefixed encoding of an address and writes the digest in base64. Both encodings are
injective on the addresses `validate` lets through, so where the hash has no collision, neither has the key. -/

namespace FactorSeal

open Wire Except

/-! ## Base64 -/

theorem base64Char_inj {m n : Nat} (hm : m < 64) (hn : n < 64) (h : base64Char m = base64Char n) : m = n := by
  have hall : ∀ i j : Fin 64, base64Char i = base64Char j → i = j := by decide +kernel
  exact congrArg Fin.val (hall ⟨m, hm⟩ ⟨n, hn⟩ h)

/-- Four characters hold three bytes. -/
theorem base64_block_inj {a b c x y z : UInt8}
    (h : base64Url [a, b, c] = base64Url [x, y, z]) : a = x ∧ b = y ∧ c = z := by
  have ha := a.toNat_lt
  have hb := b.toNat_lt
  have hc := c.toNat_lt
  have hx := x.toNat_lt
  have hy := y.toNat_lt
  have hz := z.toNat_lt
  simp only [base64Url, List.cons.injEq, and_true] at h
  obtain ⟨h₁, h₂, h₃, h₄⟩ := h
  have e₁ := base64Char_inj (by omega) (by omega) h₁
  have e₂ := base64Char_inj (by omega) (by omega) h₂
  have e₃ := base64Char_inj (by omega) (by omega) h₃
  have e₄ := base64Char_inj (by omega) (by omega) h₄
  refine ⟨UInt8.toNat_inj.1 ?_, UInt8.toNat_inj.1 ?_, UInt8.toNat_inj.1 ?_⟩ <;> omega

theorem base64_pair_inj {a b x y : UInt8} (h : base64Url [a, b] = base64Url [x, y]) : a = x ∧ b = y := by
  have ha := a.toNat_lt
  have hb := b.toNat_lt
  have hx := x.toNat_lt
  have hy := y.toNat_lt
  simp only [base64Url, List.cons.injEq, and_true] at h
  obtain ⟨h₁, h₂, h₃⟩ := h
  have e₁ := base64Char_inj (by omega) (by omega) h₁
  have e₂ := base64Char_inj (by omega) (by omega) h₂
  have e₃ := base64Char_inj (by omega) (by omega) h₃
  exact ⟨UInt8.toNat_inj.1 (by omega), UInt8.toNat_inj.1 (by omega)⟩

theorem base64_single_inj {a x : UInt8} (h : base64Url [a] = base64Url [x]) : a = x := by
  have ha := a.toNat_lt
  have hx := x.toNat_lt
  simp only [base64Url, List.cons.injEq, and_true] at h
  obtain ⟨h₁, h₂⟩ := h
  have e₁ := base64Char_inj (by omega) (by omega) h₁
  have e₂ := base64Char_inj (by omega) (by omega) h₂
  exact UInt8.toNat_inj.1 (by omega)

theorem base64Url_block (a b c : UInt8) (rest : Bytes) :
    base64Url (a :: b :: c :: rest) = base64Url [a, b, c] ++ base64Url rest := rfl

theorem length_base64Url_block (a b c : UInt8) : (base64Url [a, b, c]).length = 4 := rfl

/-- `URL_SAFE_NO_PAD` loses nothing. -/
theorem base64Url_inj : ∀ {s t : Bytes}, base64Url s = base64Url t → s = t
  | [], [], _ => rfl
  | [], [_], h => by simp [base64Url] at h
  | [], [_, _], h => by simp [base64Url] at h
  | [], _ :: _ :: _ :: _, h => by simp [base64Url] at h
  | [_], [], h => by simp [base64Url] at h
  | [a], [x], h => by rw [base64_single_inj h]
  | [_], [_, _], h => by simp [base64Url] at h
  | [_], _ :: _ :: _ :: _, h => by simp [base64Url] at h
  | [_, _], [], h => by simp [base64Url] at h
  | [_, _], [_], h => by simp [base64Url] at h
  | [a, b], [x, y], h => by
    obtain ⟨rfl, rfl⟩ := base64_pair_inj h
    rfl
  | [_, _], _ :: _ :: _ :: _, h => by simp [base64Url] at h
  | _ :: _ :: _ :: _, [], h => by simp [base64Url] at h
  | _ :: _ :: _ :: _, [_], h => by simp [base64Url] at h
  | _ :: _ :: _ :: _, [_, _], h => by simp [base64Url] at h
  | a :: b :: c :: s, x :: y :: z :: t, h => by
    rw [base64Url_block a b c s, base64Url_block x y z t] at h
    obtain ⟨hblock, hrest⟩ := List.append_inj h (by rw [length_base64Url_block, length_base64Url_block])
    obtain ⟨rfl, rfl, rfl⟩ := base64_block_inj hblock
    rw [base64Url_inj hrest]

/-! ## Addresses -/

theorem utf8_inj {a b : String} (h : utf8 a = utf8 b) : a = b := by
  have hdata : a.toByteArray.data = b.toByteArray.data := Array.toList_inj.1 h
  exact String.toByteArray_inj.1 (ByteArray.ext hdata)

theorem length_utf8 (s : String) : (utf8 s).length = s.utf8ByteSize := rfl

theorem validateAddressComponent_eq_ok {component value : String}
    (h : validateAddressComponent component value = .ok ()) : value.utf8ByteSize ≤ maxAddressComponentBytes := by
  unfold validateAddressComponent at h
  split at h
  next => cases h
  next =>
    split at h
    next => cases h
    next hlength => omega

theorem validateOptionalComponent_eq_ok {component : String} {value : Option String}
    (h : validateOptionalComponent component value = .ok ()) {text : String} (htext : text ∈ value) :
    text.utf8ByteSize ≤ maxAddressComponentBytes := by
  cases value with
  | none => cases htext
  | some value =>
    cases htext
    exact validateAddressComponent_eq_ok h

theorem digestString_append_inj {a b : String} {s t : Bytes} (ha : a.utf8ByteSize ≤ maxAddressComponentBytes)
    (hb : b.utf8ByteSize ≤ maxAddressComponentBytes) (h : digestString a ++ s = digestString b ++ t) :
    a = b ∧ s = t := by
  have hlength : ∀ c : String, c.utf8ByteSize ≤ maxAddressComponentBytes → (utf8 c).length < 2 ^ 64 := by
    intro c hc
    rw [length_utf8]
    exact lt_of_le_of_lt hc (by decide)
  obtain ⟨htext, hrest⟩ := framed_append_inj (hlength a ha) (hlength b hb) h
  exact ⟨utf8_inj htext, hrest⟩

theorem digestOption_append_inj {a b : Option String} {s t : Bytes}
    (ha : ∀ x ∈ a, x.utf8ByteSize ≤ maxAddressComponentBytes) (hb : ∀ x ∈ b, x.utf8ByteSize ≤ maxAddressComponentBytes)
    (h : digestOption a ++ s = digestOption b ++ t) : a = b ∧ s = t := by
  cases a with
  | none =>
    cases b with
    | none => exact ⟨rfl, by simpa [digestOption] using h⟩
    | some b => simp [digestOption] at h
  | some a =>
    cases b with
    | none => simp [digestOption] at h
    | some b =>
      simp only [digestOption, List.cons_append, List.cons.injEq, true_and] at h
      obtain ⟨rfl, hrest⟩ := digestString_append_inj (ha a rfl) (hb b rfl) h
      exact ⟨rfl, hrest⟩

/-- The fields of a valid SecretSpec address can be read off its digest bytes. -/
theorem SecretSpecAddress.digestBytes_inj {a b : SecretSpecAddress} (ha : a.validate = .ok ()) (hb : b.validate = .ok ())
    (h : a.digestBytes = b.digestBytes) : a = b := by
  cases a with
  | convention project profile key =>
    cases b with
    | native c => simp [digestBytes] at h
    | convention project' profile' key' =>
      simp only [SecretSpecAddress.validate, bind_eq_ok] at ha hb
      obtain ⟨⟨⟩, hproject, ⟨⟩, hprofile, hkey⟩ := ha
      obtain ⟨⟨⟩, hproject', ⟨⟩, hprofile', hkey'⟩ := hb
      simp only [digestBytes, List.cons.injEq, true_and, List.append_assoc] at h
      obtain ⟨eproject, h⟩ := digestString_append_inj (validateAddressComponent_eq_ok hproject)
        (validateAddressComponent_eq_ok hproject') h
      obtain ⟨eprofile, h⟩ := digestString_append_inj (validateAddressComponent_eq_ok hprofile)
        (validateAddressComponent_eq_ok hprofile') h
      have h' : digestString key ++ [] = digestString key' ++ [] := by rw [h]
      obtain ⟨ekey, -⟩ := digestString_append_inj (validateAddressComponent_eq_ok hkey)
        (validateAddressComponent_eq_ok hkey') h'
      rw [eproject, eprofile, ekey]
  | native c =>
    cases b with
    | convention project profile key => simp [digestBytes] at h
    | native c' =>
      simp only [SecretSpecAddress.validate, bind_eq_ok] at ha hb
      obtain ⟨⟨⟩, hitem, ⟨⟩, hfield, ⟨⟩, hvault, ⟨⟩, hsection, hversion⟩ := ha
      obtain ⟨⟨⟩, hitem', ⟨⟩, hfield', ⟨⟩, hvault', ⟨⟩, hsection', hversion'⟩ := hb
      simp only [digestBytes, List.cons.injEq, true_and, List.append_assoc] at h
      obtain ⟨eitem, h⟩ := digestString_append_inj (validateAddressComponent_eq_ok hitem)
        (validateAddressComponent_eq_ok hitem') h
      obtain ⟨efield, h⟩ := digestOption_append_inj (fun _ => validateOptionalComponent_eq_ok hfield)
        (fun _ => validateOptionalComponent_eq_ok hfield') h
      obtain ⟨evault, h⟩ := digestOption_append_inj (fun _ => validateOptionalComponent_eq_ok hvault)
        (fun _ => validateOptionalComponent_eq_ok hvault') h
      obtain ⟨esection, h⟩ := digestOption_append_inj (fun _ => validateOptionalComponent_eq_ok hsection)
        (fun _ => validateOptionalComponent_eq_ok hsection') h
      have h' : digestOption c.version ++ [] = digestOption c'.version ++ [] := by rw [h]
      obtain ⟨eversion, -⟩ := digestOption_append_inj (fun _ => validateOptionalComponent_eq_ok hversion)
        (fun _ => validateOptionalComponent_eq_ok hversion') h'
      cases c
      cases c'
      simp_all

theorem SecretAddress.digestBytes_inj {a b : SecretAddress} (ha : a.validate = .ok ()) (hb : b.validate = .ok ())
    (h : a.digestBytes = b.digestBytes) : a = b := by
  cases a with
  | «local» item field =>
    cases b with
    | secretSpec address => simp [digestBytes] at h
    | «local» item' field' =>
      simp only [SecretAddress.validate, bind_eq_ok] at ha hb
      obtain ⟨⟨⟩, hitem, hfield⟩ := ha
      obtain ⟨⟨⟩, hitem', hfield'⟩ := hb
      simp only [digestBytes, List.cons.injEq, true_and] at h
      obtain ⟨eitem, h⟩ := digestString_append_inj (validateAddressComponent_eq_ok hitem)
        (validateAddressComponent_eq_ok hitem') h
      have h' : digestOption field ++ [] = digestOption field' ++ [] := by rw [h]
      obtain ⟨efield, -⟩ := digestOption_append_inj (fun _ => validateOptionalComponent_eq_ok hfield)
        (fun _ => validateOptionalComponent_eq_ok hfield') h'
      rw [eitem, efield]
  | secretSpec address =>
    cases b with
    | «local» item field => simp [digestBytes] at h
    | secretSpec address' =>
      simp only [digestBytes, List.cons.injEq, true_and] at h
      rw [SecretSpecAddress.digestBytes_inj ha hb h]

/-- What `storage_key` hashes. -/
def SecretAddress.keyInput (address : SecretAddress) : Bytes :=
  utf8 "factorseal/secret-address/v1\x00" ++ address.digestBytes

/-- Two addresses with one key are one address, or the hash collides on them. -/
theorem SecretAddress.storageKey_inj {sha256 : Bytes → Digest} {a b : SecretAddress} (ha : a.validate = .ok ())
    (hb : b.validate = .ok ()) (hash : Set.InjOn sha256 {a.keyInput, b.keyInput})
    (h : a.storageKey sha256 = b.storageKey sha256) : a = b := by
  have hdigest : sha256 a.keyInput = sha256 b.keyInput :=
    Vector.toList_inj.1 (base64Url_inj (String.ofList_injective h))
  have hinput : a.keyInput = b.keyInput := hash (by simp) (by simp) hdigest
  exact SecretAddress.digestBytes_inj ha hb (List.append_cancel_left hinput)

end FactorSeal
