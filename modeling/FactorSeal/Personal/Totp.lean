import FactorSeal.Lib.Text
import FactorSeal.Lib.Wire

/-! # One-time-password keys (personal/totp.rs)

A key is a bare Base32 secret or an `otpauth://totp/` link with parameters. `Totp.parse` reads it, the last of repeated
parameters winning; `Totp.stored` is the form an item keeps it in: the secret of a link decoded and cleaned, the other
known parameters as they are, the unknown ones dropped.

The stored form is cleaned parameter by parameter, and a secret that is not the last may be anything. Where it decodes to
something that is itself an escape, or to a separator, the stored form is another link; where the parameters that are
dropped stood between white space and the end, the stored form is not trimmed. `stored_iff` says that these are the only
ways in which storing a key changes it. -/

namespace FactorSeal

open Wire Text List

variable {l label query text : List Char} {ss : List (List Char × List Char)}

inductive Totp.Algorithm where
  | sha1 | sha256 | sha512
deriving DecidableEq, Repr

/-- totp.rs:22-28. -/
structure Totp where
  secret : Bytes
  algorithm : Totp.Algorithm
  digits : UInt32
  period : UInt64
deriving DecidableEq, Repr

namespace Totp

variable {c : Char} {s value : List Char} {pair : List Char × List Char} {ps : List (List Char × List Char)}

def scheme : List Char := "otpauth://totp/".toList

def parameters : List (List Char) :=
  ["secret".toList, "issuer".toList, "algorithm".toList, "digits".toList, "period".toList]

/-- `link` (totp.rs:195-200). A prefix equal to the scheme up to case is ASCII, so its bytes are its characters. -/
def link (value : List Char) : Option (List Char) :=
  if (value.take scheme.length).map Char.toLower = scheme then some (value.drop scheme.length) else none

/-- `decoded` (totp.rs:202-205). -/
def decoded (value : List Char) : Option (List Char) := percentDecoded value

def isKeyChar (c : Char) : Bool := ! isWhitespace c && c != '-' && c != '='

/-- `base32` (totp.rs:207-215). -/
def base32 (key : List Char) : List Char := (key.filter isKeyChar).map Char.toUpper

/-- `query.split('&').filter_map(|pair| pair.split_once('='))`. -/
def pairs (query : List Char) : List (List Char × List Char) := (query.splitOn '&').filterMap (splitOnce '=')

def algorithmOf (name : List Char) : Option Algorithm :=
  let name := name.map Char.toUpper
  if name = "SHA1".toList then some .sha1
  else if name = "SHA256".toList then some .sha256
  else if name = "SHA512".toList then some .sha512
  else none

/-- One parameter of a link (totp.rs:44-58): the key so far and the last secret. -/
def readParameter (state : Totp × Option (List Char)) (pair : List Char × List Char) :
    Option (Totp × Option (List Char)) :=
  if pair.1 = "secret".toList then do return (state.1, some (← decoded pair.2))
  else if pair.1 = "algorithm".toList then do
    return ({ state.1 with algorithm := ← algorithmOf (← decoded pair.2) }, state.2)
  else if pair.1 = "digits".toList then do
    return ({ state.1 with digits := UInt32.ofNat (← parseDecimal (2 ^ 32) (← decoded pair.2)) }, state.2)
  else if pair.1 = "period".toList then do
    return ({ state.1 with period := UInt64.ofNat (← parseDecimal (2 ^ 64) (← decoded pair.2)) }, state.2)
  else some state

/-- The key before anything is read (totp.rs:34-39). -/
def initial : Totp := ⟨[], .sha1, 6, 30⟩

/-- The parameters and the text of the secret (totp.rs:40-62). -/
def readText (value : List Char) : Option (Totp × List Char) :=
  match link value with
  | some link => do
    let (_, query) ← splitOnce '?' link
    let (totp, secret) ← (pairs query).foldlM readParameter (initial, none)
    return (totp, ← secret)
  | none => some (initial, value)

/-- The key with its secret, if it is in range (totp.rs:63-69). -/
def checked (totp : Totp) (text : List Char) : Option Totp := do
  let secret ← base32Decode (base32 text)
  if secret ≠ [] ∧ 6 ≤ totp.digits ∧ totp.digits ≤ 8 ∧ 0 < totp.period then some { totp with secret } else none

/-- `Totp::parse` (totp.rs:32-70). -/
def parse (value : List Char) : Option Totp := do
  let (totp, text) ← readText (trim value)
  checked totp text

/-- A parameter as it is stored (totp.rs:136-145). -/
def settled (pair : List Char × List Char) : Option (List Char × List Char) :=
  if pair.1 = "secret".toList then do return (pair.1, base32 (← decoded pair.2)) else some pair

def joined (pair : List Char × List Char) : List Char := pair.1 ++ '=' :: pair.2

/-- The loop of `normalized`. -/
def written : Char → List (List Char × List Char) → Option (List Char)
  | _, [] => some []
  | separator, pair :: rest => do
    let pair ← settled pair
    return separator :: joined pair ++ (← written '&' rest)

def kept (query : List Char) : List (List Char × List Char) := (pairs query).filter fun pair => pair.1 ∈ parameters

/-- `normalized` (totp.rs:124-151). -/
def normalized (value : List Char) : Option (List Char) := do
  let value := trim value
  let _ ← parse value
  match link value with
  | none => some (base32 value)
  | some link => do
    let (label, query) ← splitOnce '?' link
    return scheme ++ label ++ (← written '?' (kept query))

/-- `stored` (totp.rs:117-122). -/
def stored (value : List Char) : Option (List Char) := if trim value = [] then some [] else normalized value

/-! ## Secrets -/

theorem isKeyChar_of_letter (h : 65 ≤ c.toNat ∧ c.toNat ≤ 122) : isKeyChar c = true := by
  have hspace : isWhitespace c = false := by
    simp only [isWhitespace, Bool.or_eq_false_iff, Bool.and_eq_false_iff, decide_eq_false_iff_not, beq_eq_false_iff_ne]
    omega
  have hdash : c ≠ '-' := by
    rintro rfl
    exact absurd h (by decide)
  have hequals : c ≠ '=' := by
    rintro rfl
    exact absurd h (by decide)
  simp [isKeyChar, hspace, hdash, hequals]

theorem isKeyChar_toUpper (c : Char) : isKeyChar c.toUpper = isKeyChar c := by
  have h := toNat_toUpper c
  by_cases hlower : 97 ≤ c.toNat ∧ c.toNat ≤ 122
  · rw [if_pos hlower] at h
    rw [isKeyChar_of_letter (c := c) (by omega), isKeyChar_of_letter (by omega)]
  · rw [if_neg hlower] at h
    rw [Char.toNat_inj.1 h]

theorem isKeyChar_of_mem_base32 (h : c ∈ base32 s) : isKeyChar c = true := by
  obtain ⟨d, hd, rfl⟩ := mem_map.1 h
  rw [isKeyChar_toUpper]
  exact (mem_filter.1 hd).2

theorem base32_base32 (s : List Char) : base32 (base32 s) = base32 s := by
  have hkeep : (base32 s).filter isKeyChar = base32 s :=
    filter_eq_self.2 fun c hc => isKeyChar_of_mem_base32 hc
  rw [base32, hkeep, base32, map_map]
  exact map_congr_left fun c _ => toUpper_toUpper c

theorem isWhitespace_of_mem_base32 (h : c ∈ base32 s) : isWhitespace c = false := by
  have := isKeyChar_of_mem_base32 h
  simp only [isKeyChar, Bool.and_eq_true, Bool.not_eq_true'] at this
  exact this.1.1

theorem not_mem_base32 (s : List Char) : '=' ∉ base32 s := by
  intro h
  have := isKeyChar_of_mem_base32 h
  simp [isKeyChar] at this

theorem size_base32_le (s : List Char) : size (base32 s) ≤ size s := by
  rw [base32, size_map utf8Size_toUpper]
  exact size_filter_le _ _

/-! ## Links -/

theorem link_eq_some (h : link value = some l) : ∃ head, value = head ++ l ∧ head.map Char.toLower = scheme := by
  unfold link at h
  split at h
  next hscheme =>
    cases h
    exact ⟨value.take scheme.length, (take_append_drop _ _).symm, hscheme⟩
  next => cases h

theorem link_scheme (l : List Char) : link (scheme ++ l) = some l := by
  rw [link, take_left, drop_left, if_pos]
  decide

theorem size_of_link (h : link value = some l) : size value = size scheme + size l := by
  obtain ⟨head, rfl, hscheme⟩ := link_eq_some h
  rw [size_append, ← hscheme, size_map utf8Size_toLower]

/-! ## Parameters -/

theorem pairs_append (a b : List Char) : pairs (a ++ '&' :: b) = pairs a ++ pairs b := by
  rw [pairs, splitOn_append_cons_self, filterMap_append]
  rfl

theorem pairs_eq_nil (h : '=' ∉ s) : pairs s = [] := by
  rw [pairs, filterMap_eq_nil_iff]
  intro piece hpiece
  exact splitOnce_eq_none fun hmem => h (mem_of_mem_splitOn hpiece hmem)

/-- A parameter that is written reads back up to the first separator in its value. -/
def cut (pair : List Char × List Char) : List Char × List Char := (pair.1, pair.2.takeWhile (· != '&'))

/-- What may stand for a parameter: no separator in the name, and not both in the value. -/
def Separate (pair : List Char × List Char) : Prop := '=' ∉ pair.1 ∧ '&' ∉ pair.1 ∧ ('&' ∈ pair.2 → '=' ∉ pair.2)

theorem pairs_joined (h : Separate pair) : pairs (joined pair) = [cut pair] := by
  obtain ⟨k, v⟩ := pair
  obtain ⟨hkey, hname, hvalue⟩ := h
  have hplain : ∀ v : List Char, '&' ∉ v → pairs (k ++ '=' :: v) = [(k, v)] := by
    intro v hv
    have hnone : '&' ∉ k ++ '=' :: v := by
      simp only [mem_append, mem_cons, not_or]
      exact ⟨hname, by decide, hv⟩
    rw [pairs, splitOn_eq_singleton hnone, filterMap_cons, splitOnce_append v hkey]
    rfl
  by_cases hv : '&' ∈ v
  · obtain ⟨a, b, rfl, ha⟩ := eq_append_cons_of_mem hv
    have hb : '=' ∉ b := fun hmem => hvalue hv (by simp [hmem])
    rw [joined, cut, takeWhile_append_cons b ha, ← cons_append, ← append_assoc, pairs_append, hplain a ha,
      pairs_eq_nil hb]
    rfl
  · rw [joined, hplain v hv, cut, takeWhile_of_not_mem hv]

theorem mem_pairs (h : pair ∈ pairs query) :
    '=' ∉ pair.1 ∧ '&' ∉ pair.1 ∧ '&' ∉ pair.2 ∧ joined pair ∈ query.splitOn '&' := by
  obtain ⟨piece, hpiece, hsplit⟩ := mem_filterMap.1 h
  obtain ⟨k, v⟩ := pair
  obtain ⟨rfl, hkey⟩ := splitOnce_eq_some hsplit
  have hnone := not_mem_of_mem_splitOn hpiece
  simp only [mem_append, mem_cons, not_or] at hnone
  exact ⟨hkey, hnone.1, hnone.2.2, hpiece⟩

/-- The parameters of a query are among its pieces. -/
theorem pairs_sublist (query : List Char) : ((pairs query).map joined).Sublist (query.splitOn '&') := by
  unfold pairs
  induction query.splitOn '&' with
  | nil => exact Sublist.slnil
  | cons piece pieces ih =>
    rw [filterMap_cons]
    split
    next hnone => exact ih.cons piece
    next pair hsome =>
      obtain ⟨rfl, -⟩ := splitOnce_eq_some hsome
      exact ih.cons_cons _

/-! ## The stored parameters -/

def render (separator : Char) : List (List Char × List Char) → List Char
  | [] => []
  | pair :: rest => separator :: (joined pair ++ (rest.map joined).flatMap ('&' :: ·))

theorem render_amp (ps : List (List Char × List Char)) : render '&' ps = (ps.map joined).flatMap ('&' :: ·) := by
  cases ps <;> rfl

theorem render_cons (separator : Char) (pair : List Char × List Char) (rest : List (List Char × List Char)) :
    render separator (pair :: rest) = separator :: (joined pair ++ render '&' rest) := by
  rw [render_amp]
  rfl

theorem written_eq (separator : Char) (ps : List (List Char × List Char)) :
    written separator ps = (ps.mapM settled).map (render separator) := by
  induction ps generalizing separator with
  | nil => rfl
  | cons pair rest ih =>
    rw [written, ih, mapM_cons]
    cases settled pair with
    | none => rfl
    | some s =>
      cases rest.mapM settled with
      | none => rfl
      | some ss =>
        rw [Option.map_some]
        exact congrArg some (render_cons separator s ss).symm

theorem mapM_settled_iff : ps.mapM settled = some ss ↔ Forall₂ (fun p s => settled p = some s) ps ss := by
  induction ps generalizing ss with
  | nil =>
    rw [mapM_nil, forall₂_nil_left_iff]
    exact ⟨fun h => (Option.some.inj h).symm, fun h => by rw [h]; rfl⟩
  | cons p ps ih =>
    rw [mapM_cons, Option.bind_eq_bind, Option.bind_eq_some_iff]
    constructor
    · rintro ⟨s, hs, h⟩
      obtain ⟨rest, hrest, h⟩ := Option.bind_eq_some_iff.1 h
      cases h
      exact .cons hs (ih.1 hrest)
    · rintro (_ | ⟨hs, hrest⟩)
      exact ⟨_, hs, by rw [ih.2 hrest]; rfl⟩

theorem settled_eq_some {s : List Char × List Char} (h : settled pair = some s) :
    s.1 = pair.1 ∧ ((pair.1 = "secret".toList ∧ ∃ w, decoded pair.2 = some w ∧ s.2 = base32 w) ∨
      (pair.1 ≠ "secret".toList ∧ s = pair)) := by
  unfold settled at h
  split at h
  next hsecret =>
    obtain ⟨w, hw, h⟩ := Option.bind_eq_some_iff.1 h
    cases h
    exact ⟨rfl, .inl ⟨hsecret, w, hw, rfl⟩⟩
  next hother =>
    cases h
    exact ⟨rfl, .inr ⟨hother, rfl⟩⟩

theorem size_joined (pair : List Char × List Char) : size (joined pair) = size pair.1 + (size ['='] + size pair.2) := by
  rw [joined, size_append, size_cons, size_singleton]

theorem size_settled_le {s : List Char × List Char} (h : settled pair = some s) : size (joined s) ≤ size (joined pair) := by
  obtain ⟨hkey, ⟨-, w, hw, hvalue⟩ | ⟨-, rfl⟩⟩ := settled_eq_some h
  · have hsize := size_percentDecoded hw
    have hbase := size_base32_le w
    rw [size_joined, size_joined, hkey, hvalue]
    omega
  · exact Nat.le_refl _

/-- The stored parameters take no more room than the query. -/
theorem size_render_le (h : (kept query).mapM settled = some ss) : size (render '?' ss) ≤ size ('?' :: query) := by
  have hsame : size (render '?' ss) ≤ size ((ss.map joined).flatMap ('&' :: ·)) := by
    cases ss with
    | nil => exact Nat.le_refl _
    | cons s ss =>
      simp only [render, map_cons, flatMap_cons, cons_append, size_cons]
      exact Nat.le_refl _
  have hsettled : size ((ss.map joined).flatMap ('&' :: ·)) ≤ size (((kept query).map joined).flatMap ('&' :: ·)) := by
    refine size_flatMap_le ?_
    rw [forall₂_map_left_iff, forall₂_map_right_iff]
    exact (mapM_settled_iff.1 h).flip.imp fun _ _ hs => size_settled_le hs
  have hkept : ((kept query).map joined).Sublist (query.splitOn '&') :=
    (filter_sublist.map joined).trans (pairs_sublist query)
  have hpieces : size (((kept query).map joined).flatMap ('&' :: ·)) ≤ size ((query.splitOn '&').flatMap ('&' :: ·)) :=
    size_flatMap_le_of_sublist hkept
  rw [flatMap_splitOn, size_cons] at hpieces
  have hone : '&'.utf8Size = '?'.utf8Size := by decide
  rw [size_cons]
  omega

/-! ## Reading -/

theorem parse_trim (value : List Char) : parse (trim value) = parse value := by
  rw [parse, trim_trim]
  rfl

theorem readText_link (hlink : link value = some l) (hsplit : splitOnce '?' l = some (label, query)) :
    readText value = (pairs query).foldlM readParameter (initial, none) >>= fun r => r.2.map fun text => (r.1, text) := by
  rw [readText, hlink]
  dsimp only
  rw [hsplit]
  show ((pairs query).foldlM readParameter (initial, none) >>= fun r => r.2 >>= fun text => some (r.1, text)) = _
  congr 1
  funext r
  cases r.2 <;> rfl

theorem readParameter_of_unknown {state : Totp × Option (List Char)}
    (h : pair.1 ∉ parameters) : readParameter state pair = some state := by
  simp only [parameters, mem_cons, not_mem_nil, or_false, not_or] at h
  obtain ⟨hsecret, -, halgorithm, hdigits, hperiod⟩ := h
  rw [readParameter, if_neg hsecret, if_neg halgorithm, if_neg hdigits, if_neg hperiod]

theorem foldlM_kept (query : List Char) (state : Totp × Option (List Char)) :
    (kept query).foldlM readParameter state = (pairs query).foldlM readParameter state := by
  unfold kept
  induction pairs query generalizing state with
  | nil => rfl
  | cons pair rest ih =>
    rw [filter_cons]
    split
    next hknown =>
      rw [foldlM_cons, foldlM_cons]
      congr 1
      funext state'
      exact ih state'
    next hunknown =>
      rw [foldlM_cons, readParameter_of_unknown (by simpa using hunknown)]
      exact ih state

/-- The secret, decoded and cleaned, is not another escape and has no separator in it. -/
def Settles (pair : List Char × List Char) : Prop :=
  pair.1 = "secret".toList → ∀ w, decoded pair.2 = some w → '&' ∉ base32 w ∧ decoded (base32 w) = some (base32 w)

theorem readParameter_settled {s : List Char × List Char} (hs : settled pair = some s) (hsettles : Settles pair)
    (totp : Totp) (text : Option (List Char)) : readParameter (totp, text.map base32) s =
      (readParameter (totp, text) pair).map fun r => (r.1, r.2.map base32) := by
  obtain ⟨hkey, ⟨hsecret, w, hw, hvalue⟩ | ⟨hother, rfl⟩⟩ := settled_eq_some hs
  · rw [readParameter, readParameter, hkey, if_pos hsecret, if_pos hsecret, hw, hvalue, (hsettles hsecret w hw).2]
    rfl
  · simp only [readParameter, if_neg hother]
    cases decoded s.2 with
    | none =>
      split_ifs <;> rfl
    | some value =>
      split_ifs
      · show (algorithmOf value >>= _) = Option.map _ (algorithmOf value >>= _)
        cases algorithmOf value <;> rfl
      · show (parseDecimal (2 ^ 32) value >>= _) = Option.map _ (parseDecimal (2 ^ 32) value >>= _)
        cases parseDecimal (2 ^ 32) value <;> rfl
      · show (parseDecimal (2 ^ 64) value >>= _) = Option.map _ (parseDecimal (2 ^ 64) value >>= _)
        cases parseDecimal (2 ^ 64) value <;> rfl
      · rfl

theorem foldlM_settled (h : Forall₂ (fun p s => settled p = some s) ps ss)
    (hsettles : ∀ p ∈ ps, Settles p) (totp : Totp) (text : Option (List Char)) :
    ss.foldlM readParameter (totp, text.map base32) =
      (ps.foldlM readParameter (totp, text)).map fun r => (r.1, r.2.map base32) := by
  induction h generalizing totp text with
  | nil => rfl
  | @cons p s ps ss hs _ ih =>
    rw [foldlM_cons, foldlM_cons, readParameter_settled hs (hsettles p mem_cons_self)]
    cases readParameter (totp, text) p with
    | none => rfl
    | some r => exact ih (fun q hq => hsettles q (mem_cons_of_mem _ hq)) r.1 r.2

/-- Reading what was stored finds the same parameters and the cleaned secret. -/
theorem checked_base32 (totp : Totp) (text : List Char) : checked totp (base32 text) = checked totp text := by
  rw [checked, checked, base32_base32]

/-! ## Storing a link -/

/-- The last character of the parameters is that of the last value, or the sign before it. -/
theorem getLast?_render {separator : Char} {last : List Char × List Char}
    (h : ss.getLast? = some last) (a : List Char) :
    (a ++ render separator ss).getLast? = some (last.2.getLast?.getD '=') := by
  induction ss generalizing separator a with
  | nil => cases h
  | cons s ss ih =>
    rw [render_cons, ← singleton_append, ← append_assoc]
    cases ss with
    | nil =>
      obtain rfl : s = last := Option.some.inj h
      show (a ++ [separator] ++ (s.1 ++ '=' :: s.2 ++ [])).getLast? = _
      rw [append_nil, ← append_assoc, getLast?_append, getLast?_cons]
      rfl
    | cons p rest =>
      rw [← append_assoc]
      exact ih h _

/-- What is written of a query can be read: the same parameters, each value up to a separator in it. -/
theorem pairs_render {s : List Char × List Char}
    (h : ∀ p ∈ s :: ss, Separate p) : pairs (joined s ++ (ss.map joined).flatMap ('&' :: ·)) = (s :: ss).map cut := by
  induction ss generalizing s with
  | nil =>
    rw [map_nil, flatMap_nil, append_nil, pairs_joined (h s mem_cons_self)]
    rfl
  | cons p ss ih =>
    rw [map_cons, flatMap_cons, cons_append, pairs_append, pairs_joined (h s mem_cons_self),
      ih fun q hq => h q (mem_cons_of_mem _ hq)]
    rfl

theorem separate_settled {s : List Char × List Char} (hpair : pair ∈ pairs query)
    (h : settled pair = some s) : Separate s := by
  obtain ⟨hkey, hname, hvalue, -⟩ := mem_pairs hpair
  obtain ⟨hsame, ⟨-, w, -, hs⟩ | ⟨-, rfl⟩⟩ := settled_eq_some h
  · refine ⟨hsame ▸ hkey, hsame ▸ hname, fun _ => ?_⟩
    rw [hs]
    exact not_mem_base32 w
  · exact ⟨hkey, hname, fun hmem => absurd hmem hvalue⟩

def assembled (label : List Char) (ss : List (List Char × List Char)) : List Char := scheme ++ (label ++ render '?' ss)

theorem normalized_link (hparse : (parse text).isSome = true)
    (hlink : link (trim text) = some l) (hsplit : splitOnce '?' l = some (label, query)) :
    normalized text = ((kept query).mapM settled).map (assembled label) := by
  obtain ⟨key, hkey⟩ := Option.isSome_iff_exists.1 hparse
  rw [normalized]
  dsimp only
  rw [parse_trim, hkey, hlink]
  dsimp only
  rw [hsplit]
  show (written '?' (kept query) >>= fun out => some (scheme ++ label ++ out)) = _
  rw [written_eq]
  cases (kept query).mapM settled with
  | none => rfl
  | some ss =>
    show some (scheme ++ label ++ render '?' ss) = some (scheme ++ (label ++ render '?' ss))
    rw [append_assoc]

theorem stored_link (hlink : link (trim text) = some l) : stored text = normalized text := by
  have hne : trim text ≠ [] := by
    intro hnil
    have hnone : link [] = none := by decide
    rw [hnil, hnone] at hlink
    cases hlink
  rw [stored, if_neg hne]

/-- What `normalized` makes of a text is not larger. -/
theorem size_normalized_le (h : normalized text = some s) : size s ≤ size (trim text) := by
  have hparse : (parse text).isSome = true := by
    obtain ⟨key, hkey, -⟩ := Option.bind_eq_some_iff.1 h
    rw [parse_trim] at hkey
    rw [hkey]
    rfl
  cases hlink : link (trim text) with
  | none =>
    obtain ⟨key, hkey, h⟩ := Option.bind_eq_some_iff.1 h
    rw [hlink] at h
    cases h
    exact size_base32_le _
  | some l =>
    cases hsplit : splitOnce '?' l with
    | none =>
      obtain ⟨key, hkey, h⟩ := Option.bind_eq_some_iff.1 h
      rw [hlink] at h
      dsimp only at h
      rw [hsplit] at h
      cases h
    | some parts =>
      obtain ⟨label, query⟩ := parts
      rw [normalized_link hparse hlink hsplit, Option.map_eq_some_iff] at h
      obtain ⟨ss, hss, rfl⟩ := h
      obtain ⟨rfl, -⟩ := splitOnce_eq_some hsplit
      have hrender := size_render_le hss
      rw [size_of_link hlink, assembled, size_append, size_append, size_append]
      omega

/-! ## Reading a stored link -/

section

variable {s : List Char × List Char}

theorem link_assembled : link (assembled label ss) = some (label ++ render '?' ss) := link_scheme _

theorem split_assembled (s : List Char × List Char) (ss : List (List Char × List Char)) (hlabel : '?' ∉ label) :
    splitOnce '?' (label ++ render '?' (s :: ss)) = some (label, joined s ++ (ss.map joined).flatMap ('&' :: ·)) :=
  splitOnce_append _ hlabel

/-- Stored parameters are known ones. -/
theorem kept_render (h : ∀ p ∈ s :: ss, Separate p) (hknown : ∀ p ∈ s :: ss, p.1 ∈ parameters) :
    kept (joined s ++ (ss.map joined).flatMap ('&' :: ·)) = (s :: ss).map cut := by
  rw [kept, pairs_render h, filter_eq_self]
  intro p hp
  obtain ⟨q, hq, rfl⟩ := mem_map.1 hp
  exact decide_eq_true (hknown q hq)

theorem trim_assembled (hends : ∀ last ∈ ss.getLast?, ∀ c ∈ last.2.getLast?, isWhitespace c = false) (hne : ss ≠ []) :
    trim (assembled label ss) = assembled label ss := by
  refine trim_of_ends ?_ ?_
  · intro c hc
    have hhead : (assembled label ss).head? = some 'o' := rfl
    rw [hhead] at hc
    cases hc
    decide
  · intro c hc
    obtain ⟨last, hlast⟩ := Option.ne_none_iff_exists'.1 (fun hnone => hne (getLast?_eq_none_iff.1 hnone))
    rw [assembled, ← append_assoc, getLast?_render hlast] at hc
    cases hc
    cases hvalue : last.2.getLast? with
    | none => decide
    | some c => exact hends last hlast c hvalue

end

/-! ## Which keys are stored as they are -/

/-- The parameters of a link that are kept do not end in white space. -/
def EndsWell (query : List Char) : Prop :=
  ∀ last ∈ (kept query).getLast?, last.1 ≠ "secret".toList → ∀ c ∈ last.2.getLast?, isWhitespace c = false

/-- A bare key, or a link whose secrets are settled by one cleaning and which ends in no white space when the unknown
parameters are dropped. -/
def Stable (text : List Char) : Prop :=
  ∀ l label query, link (trim text) = some l → splitOnce '?' l = some (label, query) →
    (∀ pair ∈ kept query, Settles pair) ∧ EndsWell query

theorem exists_settled {state r : Totp × Option (List Char)}
    (h : ps.foldlM readParameter state = some r) : ∃ ss, Forall₂ (fun p s => settled p = some s) ps ss := by
  induction ps generalizing state with
  | nil => exact ⟨[], .nil⟩
  | cons p ps ih =>
    rw [foldlM_cons] at h
    obtain ⟨state', hstep, h⟩ := Option.bind_eq_some_iff.1 h
    obtain ⟨ss, hss⟩ := ih h
    by_cases hsecret : p.1 = "secret".toList
    · rw [readParameter, if_pos hsecret] at hstep
      obtain ⟨w, hw, -⟩ := Option.bind_eq_some_iff.1 hstep
      refine ⟨(p.1, base32 w) :: ss, .cons ?_ hss⟩
      rw [settled, if_pos hsecret, hw]
      rfl
    · exact ⟨p :: ss, .cons (by rw [settled, if_neg hsecret]) hss⟩

/-- A link that parses: its parameters, and the key they make. -/
theorem parse_link {key : Totp} (hlink : link (trim text) = some l) (hsplit : splitOnce '?' l = some (label, query)) :
    parse text = some key ↔ ∃ totp secret, (kept query).foldlM readParameter (initial, none) = some (totp, some secret) ∧
      checked totp secret = some key := by
  rw [parse, readText_link hlink hsplit, foldlM_kept]
  constructor
  · intro h
    obtain ⟨⟨totp, secret⟩, hread, hchecked⟩ := Option.bind_eq_some_iff.1 h
    obtain ⟨⟨totp', found⟩, hfold, hfound⟩ := Option.bind_eq_some_iff.1 hread
    obtain ⟨secret', hsecret, hsame⟩ := Option.map_eq_some_iff.1 hfound
    cases hsame
    cases hsecret
    exact ⟨totp', _, hfold, hchecked⟩
  · rintro ⟨totp, secret, hfold, hchecked⟩
    rw [hfold]
    exact hchecked

theorem exists_of_mem_forall₂ {α β : Type} {R : α → β → Prop} {as : List α} {bs : List β} (h : Forall₂ R as bs) {b : β}
    (hb : b ∈ bs) : ∃ a ∈ as, R a b := by
  induction h with
  | nil => cases hb
  | @cons a b' as bs hab _ ih =>
    rcases mem_cons.1 hb with rfl | hb
    · exact ⟨a, mem_cons_self, hab⟩
    · obtain ⟨a', ha', hR⟩ := ih hb
      exact ⟨a', mem_cons_of_mem _ ha', hR⟩

theorem exists_of_getLast_forall₂ {α β : Type} {R : α → β → Prop} {as : List α} {bs : List β} (h : Forall₂ R as bs)
    {b : β} (hb : b ∈ bs.getLast?) : ∃ a ∈ as.getLast?, R a b := by
  induction h with
  | nil => cases hb
  | @cons a b' as bs hab hrest ih =>
    cases hrest with
    | nil =>
      cases hb
      exact ⟨a, rfl, hab⟩
    | cons => exact ih hb

section

variable {key : Totp}

/-- A stable link is stored as a link that reads the same and is stored as itself. -/
theorem stored_of_stable (hlink : link (trim text) = some l) (hsplit : splitOnce '?' l = some (label, query))
    (hsettles : ∀ pair ∈ kept query, Settles pair) (hends : EndsWell query) (hparse : parse text = some key) :
    ∃ s, stored text = some s ∧ parse s = some key ∧ stored s = some s := by
  obtain ⟨totp, secret, hfold, hchecked⟩ := (parse_link hlink hsplit).1 hparse
  obtain ⟨ss, hss⟩ := exists_settled hfold
  have hnormalized : stored text = some (assembled label ss) := by
    rw [stored_link hlink, normalized_link (by rw [hparse]; rfl) hlink hsplit, mapM_settled_iff.2 hss]
    rfl
  have hseparate : ∀ s ∈ ss, Separate s ∧ s.1 ∈ parameters ∧ '&' ∉ s.2 ∧ settled s = some s := by
    intro s hs
    obtain ⟨p, hp, hsettled⟩ := exists_of_mem_forall₂ hss hs
    obtain ⟨hpairs, hknown⟩ := mem_filter.1 hp
    have hkey := (settled_eq_some hsettled).1
    refine ⟨separate_settled hpairs hsettled, by rw [hkey]; simpa using hknown, ?_, ?_⟩
    · obtain ⟨-, ⟨hsecret, w, hw, hvalue⟩ | ⟨-, rfl⟩⟩ := settled_eq_some hsettled
      · rw [hvalue]
        exact (hsettles p hp hsecret w hw).1
      · exact (mem_pairs hpairs).2.2.1
    · obtain ⟨-, ⟨hsecret, w, hw, hvalue⟩ | ⟨hother, rfl⟩⟩ := settled_eq_some hsettled
      · rw [settled, if_pos (hkey.trans hsecret), hvalue, (hsettles p hp hsecret w hw).2]
        show some (s.1, base32 (base32 w)) = some s
        rw [base32_base32, ← hvalue]
      · exact hsettled
  cases ss with
  | nil =>
    -- a link that parses has a secret
    rw [forall₂_nil_right_iff.1 hss] at hfold
    cases hfold
  | cons s rest =>
    have hlast : ∀ last ∈ (s :: rest).getLast?, ∀ c ∈ last.2.getLast?, isWhitespace c = false := by
      intro last hlast c hc
      obtain ⟨p, hp, hsettled⟩ := exists_of_getLast_forall₂ hss hlast
      obtain ⟨-, ⟨-, w, -, hvalue⟩ | ⟨hother, rfl⟩⟩ := settled_eq_some hsettled
      · rw [hvalue] at hc
        exact isWhitespace_of_mem_base32 (mem_of_getLast? hc)
      · exact hends last hp hother c hc
    have htrim : trim (assembled label (s :: rest)) = assembled label (s :: rest) := trim_assembled hlast (by simp)
    have hlabel := (splitOnce_eq_some hsplit).2
    have hlink' : link (trim (assembled label (s :: rest))) = some (label ++ render '?' (s :: rest)) := by
      rw [htrim]
      exact link_assembled
    have hsplit' := split_assembled s rest hlabel
    have hkept : kept (joined s ++ (rest.map joined).flatMap ('&' :: ·)) = s :: rest := by
      rw [kept_render (fun p hp => (hseparate p hp).1) fun p hp => (hseparate p hp).2.1]
      refine (map_congr_left fun p hp => ?_).trans (map_id _)
      rw [cut, takeWhile_of_not_mem (hseparate p hp).2.2.1]
      rfl
    have hread : parse (assembled label (s :: rest)) = some key := by
      refine (parse_link hlink' hsplit').2 ⟨totp, base32 secret, ?_, by rw [checked_base32, hchecked]⟩
      have := foldlM_settled hss hsettles initial none
      rw [hfold] at this
      rw [hkept]
      exact this
    refine ⟨_, hnormalized, hread, ?_⟩
    have hagain : (s :: rest).mapM settled = some (s :: rest) := by
      rw [mapM_settled_iff, forall₂_same]
      exact fun p hp => (hseparate p hp).2.2.2
    rw [stored_link hlink', normalized_link (by rw [hread]; rfl) hlink' hsplit', hkept, hagain]
    rfl

/-- A cleaned secret that one more cleaning leaves as it is. -/
theorem settles_of_cut {s : List Char × List Char} (hs : settled pair = some s) (hagain : settled (cut s) = some s) :
    Settles pair := by
  intro hsecret w hw
  obtain ⟨hkey, ⟨-, w', hw', hvalue⟩ | ⟨hother, -⟩⟩ := settled_eq_some hs
  swap
  · exact absurd hsecret hother
  cases hw.symm.trans hw'
  obtain ⟨-, ⟨-, w'', hw'', hvalue''⟩ | ⟨hother, -⟩⟩ := settled_eq_some hagain
  swap
  · exact absurd (hkey.trans hsecret) hother
  rw [cut, hvalue] at hw''
  dsimp only at hw''
  -- every step of the second cleaning keeps the size
  have hbase : size (base32 w) ≤ size w'' := by
    rw [← hvalue, hvalue'']
    exact size_base32_le w''
  have hdecoded := size_percentDecoded hw''
  have hwhole : (base32 w).takeWhile (· != '&') = base32 w := takeWhile_eq_of_size (by omega)
  rw [hwhole] at hw''
  have hsame : w'' = base32 w := eq_of_size_percentDecoded hw'' hbase
  rw [hsame] at hw''
  exact ⟨not_mem_of_takeWhile_eq hwhole, hw''⟩

theorem eq_of_joined {ts : List (List Char × List Char)} (hkeys : Forall₂ (fun t p => t.1 = p.1) ts ps)
    (h : ts.map joined = ps.map joined) : ts = ps := by
  induction hkeys with
  | nil => rfl
  | @cons t p ts ps hkey _ ih =>
    obtain ⟨hjoined, hrest⟩ := cons.inj h
    rw [joined, joined, hkey] at hjoined
    have hvalue : t.2 = p.2 := (cons.inj (append_cancel_left hjoined)).2
    rw [ih hrest, Prod.ext hkey hvalue]

/-- If a second cleaning gives the same text, it leaves every parameter as it is. -/
theorem settled_cut {s : List Char × List Char} {rest ts : List (List Char × List Char)}
    (h : Forall₂ (fun p t => settled p = some t) ((s :: rest).map cut) ts)
    (hsame : assembled label ts = assembled label (s :: rest)) : ∀ p ∈ s :: rest, settled (cut p) = some p := by
  have hrender : render '?' ts = render '?' (s :: rest) :=
    append_cancel_left (append_cancel_left hsame)
  rw [forall₂_map_left_iff] at h
  have hle : Forall₂ (fun a b => size a ≤ size b) (ts.map joined) ((s :: rest).map joined) := by
    rw [forall₂_map_left_iff, forall₂_map_right_iff]
    refine h.flip.imp fun t p ht => ?_
    have hcut : size (joined (cut p)) ≤ size (joined p) := by
      have := size_takeWhile_le (· != '&') p.2
      rw [size_joined, size_joined, cut]
      dsimp only
      omega
    exact (size_settled_le ht).trans hcut
  have hpieces : (ts.map joined).flatMap ('&' :: ·) = ((s :: rest).map joined).flatMap ('&' :: ·) := by
    cases ts with
    | nil => cases hrender
    | cons t ts => exact congrArg ('&' :: ·) (cons.inj hrender).2
  have hkeys : Forall₂ (fun t p => t.1 = p.1) ts (s :: rest) := h.flip.imp fun t p ht => (settled_eq_some ht).1
  rw [eq_of_joined hkeys (eq_of_flatMap_eq hle hpieces)] at h
  exact forall₂_same.1 h

/-- A link that is stored as a link stored as itself is stable. -/
theorem stable_of_stored (hlink : link (trim text) = some l) (hsplit : splitOnce '?' l = some (label, query))
    (hparse : parse text = some key) (hs : stored text = some s) (hagain : stored s = some s) :
    (∀ pair ∈ kept query, Settles pair) ∧ EndsWell query := by
  rw [stored_link hlink, normalized_link (by rw [hparse]; rfl) hlink hsplit, Option.map_eq_some_iff] at hs
  obtain ⟨ss, hmap, rfl⟩ := hs
  have hss := mapM_settled_iff.1 hmap
  obtain ⟨totp, secret, hfold, -⟩ := (parse_link hlink hsplit).1 hparse
  cases ss with
  | nil =>
    rw [forall₂_nil_right_iff.1 hss] at hfold
    cases hfold
  | cons s rest =>
    have hwell : ∀ p ∈ s :: rest, Separate p ∧ p.1 ∈ parameters := by
      intro p hp
      obtain ⟨q, hq, hsettled⟩ := exists_of_mem_forall₂ hss hp
      obtain ⟨hpairs, hknown⟩ := mem_filter.1 hq
      exact ⟨separate_settled hpairs hsettled, by rw [(settled_eq_some hsettled).1]; simpa using hknown⟩
    have hnormalized : normalized (assembled label (s :: rest)) = some (assembled label (s :: rest)) := by
      rw [stored] at hagain
      split at hagain
      next => cases hagain
      next => exact hagain
    have htrim := trim_eq_of_size (size_normalized_le hnormalized)
    have hlink' : link (trim (assembled label (s :: rest))) = some (label ++ render '?' (s :: rest)) := by
      rw [htrim]
      exact link_assembled
    have hsplit' := split_assembled s rest (splitOnce_eq_some hsplit).2
    have hparse' : (parse (assembled label (s :: rest))).isSome = true := by
      obtain ⟨key, hkey, -⟩ := Option.bind_eq_some_iff.1 hnormalized
      rw [parse_trim] at hkey
      rw [hkey]
      rfl
    rw [normalized_link hparse' hlink' hsplit', kept_render (fun p hp => (hwell p hp).1) fun p hp => (hwell p hp).2,
      Option.map_eq_some_iff] at hnormalized
    obtain ⟨ts, hts, hsame⟩ := hnormalized
    have hcut : ∀ p ∈ s :: rest, settled (cut p) = some p := settled_cut (mapM_settled_iff.1 hts) hsame
    constructor
    · intro pair hpair
      obtain ⟨p, hp, hsettled⟩ := exists_of_mem_forall₂ hss.flip hpair
      exact settles_of_cut hsettled (hcut p hp)
    · intro last hlast hother c hc
      obtain ⟨p, hp, hsettled⟩ := exists_of_getLast_forall₂ hss.flip hlast
      obtain ⟨-, ⟨hsecret, -⟩ | ⟨-, rfl⟩⟩ := settled_eq_some hsettled
      · exact absurd hsecret hother
      · refine getLast_trim (s := assembled label (s :: rest)) c ?_
        rw [htrim, assembled, ← append_assoc, getLast?_render hp, Option.mem_def.1 hc]
        rfl

end

/-! ## Bare keys -/

theorem link_of_base32 (h : ∀ c ∈ s, (base32Digit c).isSome = true) : link s = none := by
  cases hlink : link s with
  | none => rfl
  | some l =>
    obtain ⟨head, rfl, hscheme⟩ := link_eq_some hlink
    have hcolon : ':' ∈ head.map Char.toLower := by
      rw [hscheme]
      decide
    obtain ⟨c, hc, hlower⟩ := mem_map.1 hcolon
    have hnat : c.toNat = 58 := by
      have := toNat_toLower c
      rw [hlower] at this
      have hval : ':'.toNat = 58 := rfl
      split_ifs at this <;> omega
    have hdigit := h c (mem_append_left _ hc)
    rw [base32Digit, if_neg (by omega), if_neg (by omega)] at hdigit
    cases hdigit

/-- A bare key is stored cleaned, and that reads the same. -/
theorem stored_of_bare {key : Totp} (hlink : link (trim text) = none) (hparse : parse text = some key) :
    ∃ s, stored text = some s ∧ parse s = some key ∧ stored s = some s := by
  have hchecked : checked initial (trim text) = some key := by
    rw [parse, readText, hlink] at hparse
    exact hparse
  obtain ⟨secret, hsecret, hvalid⟩ := Option.bind_eq_some_iff.1 hchecked
  have hne : base32 (trim text) ≠ [] := by
    intro hnil
    have hempty : base32Decode [] = some [] := by decide
    rw [hnil, hempty] at hsecret
    cases hsecret
    rw [if_neg (fun h => h.1 rfl)] at hvalid
    cases hvalid
  have htrim : trim (base32 (trim text)) = base32 (trim text) :=
    trim_of_ends (fun c hc => isWhitespace_of_mem_base32 (mem_of_mem_head? hc))
      fun c hc => isWhitespace_of_mem_base32 (mem_of_getLast? hc)
  have hlink' : link (trim (base32 (trim text))) = none := by
    rw [htrim]
    exact link_of_base32 (isSome_base32Digit hsecret)
  have hread : parse (base32 (trim text)) = some key := by
    rw [parse, readText, hlink', htrim]
    exact (checked_base32 initial (trim text)).trans hchecked
  refine ⟨base32 (trim text), ?_, hread, ?_⟩
  · rw [stored, if_neg (fun hnil => hne (by rw [hnil]; rfl)), normalized]
    dsimp only
    rw [parse_trim, hparse, hlink]
    rfl
  · rw [stored, if_neg (by rw [htrim]; exact hne), normalized]
    dsimp only
    rw [parse_trim, hread, hlink', htrim, base32_base32]
    rfl

/-- **The key a text stands for survives storing, and storing again changes nothing, exactly if the text is stable; what
stands for no key is not stored.** -/
theorem stored_iff (text : List Char) :
    ((∀ key, parse text = some key → ∃ s, stored text = some s ∧ parse s = some key ∧ stored s = some s) ∧
      (parse text = none → ∀ s, stored text = some s → s = [])) ↔ ((parse text).isSome = true → Stable text) := by
  constructor
  · rintro ⟨hstored, -⟩ hsome l label query hlink hsplit
    obtain ⟨key, hkey⟩ := Option.isSome_iff_exists.1 hsome
    obtain ⟨s, hs, -, hagain⟩ := hstored key hkey
    exact stable_of_stored hlink hsplit hkey hs hagain
  · intro hstable
    constructor
    · intro key hkey
      cases hlink : link (trim text) with
      | none => exact stored_of_bare hlink hkey
      | some l =>
        cases hsplit : splitOnce '?' l with
        | none =>
          rw [parse, readText, hlink] at hkey
          dsimp only at hkey
          rw [hsplit] at hkey
          cases hkey
        | some parts =>
          obtain ⟨hsettles, hends⟩ := hstable (by rw [hkey]; rfl) l parts.1 parts.2 hlink hsplit
          exact stored_of_stable hlink hsplit hsettles hends hkey
    · intro hnone s hs
      rw [stored] at hs
      split at hs
      next =>
        cases hs
        rfl
      next =>
        rw [normalized] at hs
        dsimp only at hs
        rw [parse_trim, hnone] at hs
        cases hs

/-- A link with two secrets, of which the first decodes to a percent sign and two digits. -/
def escapedSecret : List Char := "otpauth://totp/x?secret=%25FF&secret=GEZDGNBV".toList

theorem stored_of_escapedSecret : ∃ key s, parse escapedSecret = some key ∧ stored escapedSecret = some s ∧ parse s = none := by
  have hkey : (parse escapedSecret).isSome = true := by decide +kernel
  have hstored : ((stored escapedSecret).map parse) = some none := by decide +kernel
  obtain ⟨key, hkey⟩ := Option.isSome_iff_exists.1 hkey
  obtain ⟨s, hs, hnone⟩ := Option.map_eq_some_iff.1 hstored
  exact ⟨key, s, hkey, hs, hnone⟩

end Totp

end FactorSeal
