import FactorSeal.Wifi.Steps

/-! # What a deletion leaves behind

Once the vault has carried out a deletion, what it holds of the connection was stored by a save or by a get that began
later (`run_cleared`), provided that no earlier get of the connection is still running or has a value with the vault at
that moment. Nothing in the agent provides for that: a get that is canceled while the vault has its request leaves the
request behind, and the vault may carry it out after the deletion (`canceled_get_stores`). -/

namespace FactorSeal.Wifi

open Wire List

/-! ## The vault -/

namespace Contents

variable {author : Nat} {contents : Contents} {address : WireSecretAddress}

/-- What is stored after a batch was there before or is put by it. -/
theorem foldl_mutate_eq_some {ms : List VaultMutation} {v : Bytes} {a : Nat}
    (h : ms.foldl (mutate author) contents address = some (v, a)) :
    contents address = some (v, a) ∨ (a = author ∧ ∃ d, VaultMutation.put address v d ∈ ms) := by
  induction ms generalizing contents with
  | nil => exact .inl h
  | cons m ms ih =>
    rcases ih h with hold | ⟨ha, d, hd⟩
    · cases m with
      | check other d => exact .inl hold
      | put other value d =>
        by_cases hother : address = other
        · subst hother
          rw [mutate, Function.update_self] at hold
          cases hold
          exact .inr ⟨rfl, d, by simp⟩
        · rw [mutate, Function.update_of_ne hother] at hold
          exact .inl hold
      | delete other =>
        by_cases hother : address = other
        · subst hother
          rw [mutate, Function.update_self] at hold
          cases hold
        · rw [mutate, Function.update_of_ne hother] at hold
          exact .inl hold
    · exact .inr ⟨ha, d, mem_cons_of_mem _ hd⟩

/-- A batch that puts nothing leaves nothing where there was nothing, and at the addresses it deletes. -/
theorem foldl_mutate_eq_none {ms : List VaultMutation} (hputs : ∀ m ∈ ms, isPut m = false)
    (h : contents address = none ∨ .delete address ∈ ms) : ms.foldl (mutate author) contents address = none := by
  induction ms generalizing contents with
  | nil =>
    rcases h with h | h
    · exact h
    · cases h
  | cons m ms ih =>
    refine ih (fun m hm => hputs m (mem_cons_of_mem _ hm)) ?_
    cases m with
    | check other d =>
      rcases h with h | h
      · exact .inl h
      · rcases mem_cons.1 h with h | h
        · cases h
        · exact .inr h
    | put other value d => cases hputs _ mem_cons_self
    | delete other =>
      by_cases hother : address = other
      · subst hother
        exact .inl (Function.update_self ..)
      · rcases h with h | h
        · exact .inl ((Function.update_of_ne hother ..).trans h)
        · rcases mem_cons.1 h with h | h
          · cases h
            exact absurd rfl hother
          · exact .inr h

end Contents

theorem isPut_deleteWrites {uuid : String} : ∀ m ∈ deleteWrites uuid, isPut m = false := by
  intro m hm
  rcases mem_append.1 hm with hm | hm
  · obtain ⟨p, -, rfl⟩ := mem_map.1 hm
    rfl
  · obtain rfl := mem_singleton.1 hm
    rfl

theorem delete_mem_deleteWrites (p : Property) (uuid : String) : .delete (p.address uuid) ∈ deleteWrites uuid :=
  mem_append_left _ (mem_map.2 ⟨p, p.mem_all, rfl⟩)

/-! ## The condition -/

def Call.isGet : Call → Bool
  | .get _ _ _ _ => true
  | _ => false

def Call.deletes (uuid : String) : Call → Bool
  | .delete _ other => other = uuid
  | _ => false

namespace State

/-- No get of the connection is at work, and none has left a value with the vault. -/
def Settled (s : State) (uuid : String) : Prop :=
  (∀ c ∈ s.calls, c.call.isGet = true → c.call.uuid = uuid → c.phase.isFinished = true) ∧
    ∀ r ∈ s.requests, (s.calls[r.owner]?.any fun c => c.call.isGet && c.call.uuid = uuid) = true →
      ∀ m ∈ r.mutations, isPut m = false

/-- The vault's next request belongs to a deletion of the connection. -/
def deletesNext (s : State) (uuid : String) (i : Nat) : Bool :=
  (s.requests[i]?.bind fun r => s.calls[r.owner]?).any fun c => c.call.deletes uuid

end State

instance (s : State) (uuid : String) : Decidable (s.Settled uuid) := by
  unfold State.Settled
  infer_instance

/-- The connection is not migrated, and the vault carries out its deletions while nothing of an earlier get is pending. -/
def Orderly (uuid : String) (s : State) : Event → Prop
  | .start (.migrate other) => other ≠ uuid
  | .carryOut i true => s.deletesNext uuid i = true → s.Settled uuid
  | _ => True

/-! ## What holds after a deletion -/

section

variable {uuid : String} {s s' : State} {m n : Nat} {c : CallState} {call : Call} {phase : Phase}

/-- The call may have stored a value after a deletion before which `m` calls had begun. -/
def State.MayStore (s : State) (m a : Nat) : Prop :=
  ∃ c, s.calls[a]? = some c ∧ ((∃ profile, c.call = .save profile) ∨ (c.call.isGet = true ∧ m ≤ a))

/-- How calls go on, with new ones at the end. -/
structure Continues (s s' : State) : Prop where
  length : s.calls.length ≤ s'.calls.length
  calls : ∀ (n : Nat) c', s'.calls[n]? = some c' → n < s.calls.length →
    ∃ c, s.calls[n]? = some c ∧ c'.call = c.call ∧ (c.phase.isFinished = true → c'.phase.isFinished = true)

theorem Continues.mayStore (h : Continues s s') {a : Nat} (ha : s.MayStore m a) : s'.MayStore m a := by
  obtain ⟨c, hc, hcall⟩ := ha
  obtain ⟨hlt, -⟩ := List.getElem?_eq_some_iff.1 hc
  have hlt' := Nat.lt_of_lt_of_le hlt h.length
  obtain ⟨d, hd, hsame, -⟩ := h.calls a _ (getElem?_eq_getElem hlt') hlt
  rw [hc] at hd
  cases hd
  exact ⟨_, getElem?_eq_getElem hlt', by rwa [hsame]⟩

/-- The connection was deleted when `m` calls had begun. -/
structure Cleared (uuid : String) (s : State) (m : Nat) : Prop where
  le : m ≤ s.calls.length
  contents : ∀ (p : Property) v a, s.contents (p.address uuid) = some (v, a) → s.MayStore m a
  requests : ∀ r ∈ s.requests, ∀ (p : Property) v d, .put (p.address uuid) v d ∈ r.mutations → s.MayStore m r.owner
  gets : ∀ (n : Nat) c, s.calls[n]? = some c → c.call.isGet = true → c.call.uuid = uuid →
    c.phase.isFinished = false → m ≤ n

theorem Cleared.continues (h : Cleared uuid s m) (hs : Continues s s')
    (hcontents : ∀ (p : Property) v a, s'.contents (p.address uuid) = some (v, a) →
      s.contents (p.address uuid) = some (v, a) ∨ s.MayStore m a)
    (hrequests : ∀ r ∈ s'.requests, ∀ (p : Property) v d, .put (p.address uuid) v d ∈ r.mutations →
      r ∈ s.requests ∨ s.MayStore m r.owner) : Cleared uuid s' m := by
  refine ⟨h.le.trans hs.length, fun p v a hstored => ?_, fun r hr p v d hput => ?_, fun n c' hc' hget huuid hrunning => ?_⟩
  · rcases hcontents p v a hstored with hstored | hstore
    · exact hs.mayStore (h.contents p v a hstored)
    · exact hs.mayStore hstore
  · rcases hrequests r hr p v d hput with hr | hstore
    · exact hs.mayStore (h.requests r hr p v d hput)
    · exact hs.mayStore hstore
  · by_cases hn : n < s.calls.length
    · obtain ⟨c, hc, hcall, hfinished⟩ := hs.calls n c' hc' hn
      rw [hcall] at hget huuid
      refine h.gets n c hc hget huuid ?_
      by_contra hphase
      rw [hfinished (Bool.not_eq_false _ ▸ hphase)] at hrunning
      cases hrunning
    · exact h.le.trans (Nat.le_of_not_lt hn)

/-- The answer that a deletion needs for its success. -/
def Phase.succeeded : Phase → Bool
  | .writing (some true) | .finished true => true
  | _ => false

structure Inv (uuid : String) (s : State) : Prop where
  suits : ∀ (n : Nat) c, s.calls[n]? = some c → c.call.Suits c.phase
  migrates : ∀ (n : Nat) c, s.calls[n]? = some c → c.call ≠ .migrate uuid
  owned : ∀ r ∈ s.requests, ∃ c, s.calls[r.owner]? = some c ∧ OwnWrites c.call r.mutations
  succeeded : ∀ (n : Nat) c, s.calls[n]? = some c → c.call.deletes uuid = true → c.phase.succeeded = true →
    c.carriedOut.isSome
  cleared : ∀ (n : Nat) c m, s.calls[n]? = some c → c.call.deletes uuid = true → c.carriedOut = some m →
    Cleared uuid s m

theorem Inv.begin (contents : Contents) (profiles : String → ManagedProfile)
    (legacy : String → Property → List (Nat × Bytes)) : Inv uuid (State.begin contents profiles legacy) :=
  ⟨fun n c h => by simp [State.begin] at h, fun n c h => by simp [State.begin] at h,
    fun r h => by simp [State.begin] at h, fun n c h => by simp [State.begin] at h,
    fun n c m h => by simp [State.begin] at h⟩

/-! ## One step -/

/-- A call has gone on, as far as deletions of the connection are concerned. -/
structure GoesOn (uuid : String) (c c' : CallState) : Prop where
  call : c'.call = c.call
  carriedOut : c'.carriedOut = c.carriedOut
  finished : c.phase.isFinished = true → c'.phase.isFinished = true
  suits : c'.call.Suits c'.phase
  succeeded : c.call.deletes uuid = true → c'.phase.succeeded = true → c.phase.succeeded = true

theorem GoesOn.refl (h : c.call.Suits c.phase) : GoesOn uuid c c := ⟨rfl, rfl, id, h, fun _ => id⟩

theorem deletes_ne_migrate (h : call.deletes uuid = true) (other : String) : call ≠ .migrate other := by
  rintro rfl
  cases h

theorem exists_delete (h : call.deletes uuid = true) : ∃ path, call = .delete path uuid := by
  unfold Call.deletes at h
  split at h
  next path other =>
    obtain rfl := of_decide_eq_true h
    exact ⟨path, rfl⟩
  next => cases h

theorem deleteWrites_ne_nil : deleteWrites uuid ≠ [] := by simp [deleteWrites]

/-- A deletion does not succeed without an answer of the vault. -/
theorem Stretch.succeeded {c' : CallState} (h : Stretch s c c') (hc : c.call.Suits c.phase)
    (hdeletes : c.call.deletes uuid = true) (hsucceeded : c'.phase.succeeded = true) : c.phase.succeeded = true := by
  cases h with
  | nothing hcall hphase =>
    rw [hphase] at hc
    obtain ⟨path, hdelete⟩ := exists_delete hdeletes
    exact absurd (hc.deletes path uuid hdelete).symm deleteWrites_ne_nil
  | @complete ok hphase =>
    cases ok with
    | true =>
      rw [hphase]
      rfl
    | false => cases hsucceeded
  | collected hphase _ =>
    rw [hphase] at hc
    exact absurd hc (deletes_ne_migrate hdeletes _)
  | cleaned hphase =>
    rw [hphase] at hc
    obtain ⟨other, hcall⟩ := hc
    exact absurd hcall (deletes_ne_migrate hdeletes other)
  | _ => cases hsucceeded

theorem Stretch.goesOn {c' : CallState} (h : Stretch s c c') (hc : c.call.Suits c.phase) : GoesOn uuid c c' := by
  refine ⟨h.call, h.carriedOut, fun hfinished => ?_, h.suits hc, h.succeeded hc⟩
  rw [h.running] at hfinished
  cases hfinished

/-- A running call takes another phase, in which it has not succeeded. -/
theorem GoesOn.of_phase (hrunning : c.phase.isFinished = false)
    (hsuits : c.call.Suits phase) (hsucceeded : phase.succeeded = false) : GoesOn uuid c { c with phase } := by
  refine ⟨rfl, rfl, fun h => ?_, hsuits, fun _ h => ?_⟩
  · rw [hrunning] at h
    cases h
  · rw [show phase.succeeded = true from h] at hsucceeded
    cases hsucceeded

/-- Only saves, and gets that began late enough, put a value of the connection. -/
theorem mayStore_of_put {writes : List VaultMutation} (hc : s.calls[n]? = some c)
    (hmigrate : c.call ≠ .migrate uuid) (hown : OwnWrites c.call writes)
    {p : Property} {v : Bytes} {d : Option UInt64} (hput : .put (p.address uuid) v d ∈ writes)
    (hget : c.call.isGet = true → c.call.uuid = uuid → m ≤ n) : s.MayStore m n := by
  have huuid : c.call.uuid = uuid := (hown.uuid _ hput).1.symm
  refine ⟨c, hc, ?_⟩
  cases hcall : c.call with
  | get path settingName profile flags =>
    rw [hcall] at hget huuid
    exact .inr ⟨rfl, hget rfl huuid⟩
  | save profile => exact .inl ⟨profile, rfl⟩
  | delete path other =>
    rw [hown.deletes path other hcall] at hput
    cases isPut_deleteWrites _ hput
  | migrate other =>
    rw [hcall] at hmigrate huuid
    exact absurd (congrArg Call.migrate huuid) hmigrate

/-- The calls go on, new ones begin, and running ones hand over writes of their own. -/
structure Calm (uuid : String) (s s' : State) : Prop where
  contents : s'.contents = s.contents
  length : s.calls.length ≤ s'.calls.length
  calls : ∀ (n : Nat) c', s'.calls[n]? = some c' → (∃ c, s.calls[n]? = some c ∧ GoesOn uuid c c') ∨
    (s.calls.length ≤ n ∧ c'.phase = .began ∧ c'.carriedOut = none ∧ c'.call ≠ .migrate uuid)
  requests : ∀ r ∈ s'.requests, r ∈ s.requests ∨
    ∃ c, s.calls[r.owner]? = some c ∧ OwnWrites c.call r.mutations ∧ c.phase.isFinished = false

theorem Calm.continues (h : Calm uuid s s') : Continues s s' := by
  refine ⟨h.length, fun n c' hc' hn => ?_⟩
  rcases h.calls n c' hc' with ⟨c, hc, hgoes⟩ | ⟨hn', -⟩
  · exact ⟨c, hc, hgoes.call, hgoes.finished⟩
  · omega

theorem Continues.exists_call (h : Continues s s') (hc : s.calls[n]? = some c) :
    ∃ c', s'.calls[n]? = some c' ∧ c'.call = c.call := by
  obtain ⟨hlt, -⟩ := List.getElem?_eq_some_iff.1 hc
  have hlt' := Nat.lt_of_lt_of_le hlt h.length
  obtain ⟨d, hd, hsame, -⟩ := h.calls n _ (getElem?_eq_getElem hlt') hlt
  rw [hc] at hd
  cases hd
  exact ⟨_, getElem?_eq_getElem hlt', hsame⟩

theorem Inv.calm (h : Inv uuid s) (hs : Calm uuid s s') : Inv uuid s' where
  suits n c' hc' := by
    rcases hs.calls n c' hc' with ⟨c, -, hgoes⟩ | ⟨-, hphase, -⟩
    · exact hgoes.suits
    · rw [hphase]
      trivial
  migrates n c' hc' := by
    rcases hs.calls n c' hc' with ⟨c, hc, hgoes⟩ | ⟨-, -, -, hcall⟩
    · rw [hgoes.call]
      exact h.migrates n c hc
    · exact hcall
  owned r hr := by
    have hbefore : ∃ c, s.calls[r.owner]? = some c ∧ OwnWrites c.call r.mutations := by
      rcases hs.requests r hr with hr | ⟨c, hc, hown, -⟩
      · exact h.owned r hr
      · exact ⟨c, hc, hown⟩
    obtain ⟨c, hc, hown⟩ := hbefore
    obtain ⟨c', hc', hcall⟩ := hs.continues.exists_call hc
    exact ⟨c', hc', hcall ▸ hown⟩
  succeeded n c' hc' hdeletes hsucceeded := by
    rcases hs.calls n c' hc' with ⟨c, hc, hgoes⟩ | ⟨-, hphase, -⟩
    · rw [hgoes.call] at hdeletes
      rw [hgoes.carriedOut]
      exact h.succeeded n c hc hdeletes (hgoes.succeeded hdeletes hsucceeded)
    · rw [hphase] at hsucceeded
      cases hsucceeded
  cleared n c' m hc' hdeletes hcarried := by
    rcases hs.calls n c' hc' with ⟨c, hc, hgoes⟩ | ⟨-, -, hnone, -⟩
    · rw [hgoes.call] at hdeletes
      rw [hgoes.carriedOut] at hcarried
      have hcleared := h.cleared n c m hc hdeletes hcarried
      refine hcleared.continues hs.continues (fun p v a hstored => .inl (hs.contents ▸ hstored)) fun r hr p v d hput => ?_
      rcases hs.requests r hr with hr | ⟨c, hc, hown, hrunning⟩
      · exact .inl hr
      · exact .inr (mayStore_of_put hc (h.migrates _ c hc) hown hput
          fun hget huuid => hcleared.gets _ c hc hget huuid hrunning)
    · rw [hnone] at hcarried
      cases hcarried

theorem Inv.suits_at (h : Inv uuid s) (hc : s.calls[n]? = some c) (hphase : c.phase = phase) : c.call.Suits phase :=
  hphase ▸ h.suits n c hc

/-- A call takes another phase, and may hand over writes. -/
theorem Inv.calm_set (h : Inv uuid s) (hc : s.calls[n]? = some c) (phase : Phase)
    (hgoes : GoesOn uuid c { c with phase }) (hcontents : s'.contents = s.contents)
    (hcalls : s'.calls = s.calls.set n { c with phase }) (hrequests : ∀ r ∈ s'.requests, r ∈ s.requests ∨
      ∃ c, s.calls[r.owner]? = some c ∧ OwnWrites c.call r.mutations ∧ c.phase.isFinished = false) : Calm uuid s s' := by
  refine ⟨hcontents, by rw [hcalls, length_set], fun m d hd => .inl ?_, hrequests⟩
  rw [hcalls] at hd
  rcases getElem?_set_cases hd with ⟨rfl, rfl⟩ | ⟨-, hd⟩
  · exact ⟨c, hc, hgoes⟩
  · exact ⟨d, hd, .refl (h.suits m d hd)⟩

theorem mem_concat_request {requests : List Request} {r new : Request} (h : r ∈ requests ++ [new]) :
    r ∈ requests ∨ r = new := by
  simpa using h

/-! ## A request that the vault carries out -/

theorem isFinished_heard (accepted : Bool) (phase : Phase) : (phase.heard accepted).isFinished = phase.isFinished := by
  unfold Phase.heard
  split <;> rfl

theorem succeeded_heard_false (h : (phase.heard false).succeeded = true) : phase.succeeded = true := by
  unfold Phase.heard at h
  split at h
  · cases h
  · cases h
  · exact h

section

variable {i : Nat} {accepted : Bool} {r : Request}

theorem CarriesOut.continues (h : CarriesOut s s' i accepted r) : Continues s s' := by
  refine ⟨h.length.ge, fun n c' hc' _ => ?_⟩
  obtain ⟨c, hc, rfl⟩ := h.calls n c' hc'
  refine ⟨c, hc, ?_⟩
  split
  · exact ⟨rfl, fun hfinished => (isFinished_heard accepted c.phase).trans hfinished⟩
  · exact ⟨rfl, id⟩

/-- An earlier deletion. -/
theorem Cleared.carriesOut (hcleared : Cleared uuid s m) (h : CarriesOut s s' i accepted r) : Cleared uuid s' m := by
  have hr : r ∈ s.requests := mem_of_getElem? h.request
  refine hcleared.continues h.continues (fun p v a hstored => ?_) fun r' hr' p v d hput => .inl ?_
  · rw [h.contents] at hstored
    split at hstored
    · rcases Contents.foldl_mutate_eq_some hstored with hstored | ⟨rfl, d, hput⟩
      · exact .inl hstored
      · exact .inr (hcleared.requests r hr p v d hput)
    · exact .inl hstored
  · rw [h.requests] at hr'
    exact mem_of_mem_eraseIdx hr'

/-- The deletion that the vault carries out. -/
theorem Inv.cleared_of_delete (hinv : Inv uuid s) (h : CarriesOut s s' i true r)
    (hc : s.calls[r.owner]? = some c) (hdeletes : c.call.deletes uuid = true) (hsettled : s.Settled uuid) :
    Cleared uuid s' s.calls.length := by
  obtain ⟨path, hcall⟩ := exists_delete hdeletes
  obtain ⟨c', hc', hown⟩ := hinv.owned r (mem_of_getElem? h.request)
  rw [hc] at hc'
  cases hc'
  refine ⟨h.length.ge, fun p v a hstored => ?_, fun r' hr' p v d hput => ?_, fun n d hd hget huuid hrunning => ?_⟩
  · rw [h.contents, if_pos rfl, hown.deletes path uuid hcall,
      Contents.foldl_mutate_eq_none isPut_deleteWrites (.inr (delete_mem_deleteWrites p uuid))] at hstored
    cases hstored
  · rw [h.requests] at hr'
    have hmem : r' ∈ s.requests := mem_of_mem_eraseIdx hr'
    obtain ⟨c', hc', hown'⟩ := hinv.owned r' hmem
    refine h.continues.mayStore (mayStore_of_put hc' (hinv.migrates _ c' hc') hown' hput fun hget huuid => ?_)
    have hputs := hsettled.2 r' hmem (by rw [hc']; simp [hget, huuid])
    cases hputs _ hput
  · obtain ⟨c', hc', rfl⟩ := h.calls n d hd
    have hfinished : c'.phase.isFinished = true := by
      refine hsettled.1 c' (mem_of_getElem? hc') ?_ ?_
      · split at hget <;> exact hget
      · split at huuid <;> exact huuid
    split at hrunning
    · rw [CallState.hear, isFinished_heard, hfinished] at hrunning
      cases hrunning
    · rw [hfinished] at hrunning
      cases hrunning

theorem Inv.carriesOut (hinv : Inv uuid s) (h : CarriesOut s s' i accepted r)
    (horderly : accepted = true → s.deletesNext uuid i = true → s.Settled uuid) : Inv uuid s' where
  suits n c' hc' := by
    obtain ⟨c, hc, rfl⟩ := h.calls n c' hc'
    split
    · exact suits_heard accepted (hinv.suits n c hc)
    · exact hinv.suits n c hc
  migrates n c' hc' := by
    obtain ⟨c, hc, rfl⟩ := h.calls n c' hc'
    split <;> exact hinv.migrates n c hc
  owned r' hr' := by
    rw [h.requests] at hr'
    obtain ⟨c, hc, hown⟩ := hinv.owned r' (mem_of_mem_eraseIdx hr')
    obtain ⟨c', hc', hcall⟩ := h.continues.exists_call hc
    exact ⟨c', hc', hcall ▸ hown⟩
  succeeded n c' hc' hdeletes hsucceeded := by
    obtain ⟨c, hc, rfl⟩ := h.calls n c' hc'
    by_cases hn : n = r.owner
    · rw [if_pos hn] at hdeletes hsucceeded ⊢
      cases accepted with
      | true => rfl
      | false => exact hinv.succeeded n c hc hdeletes (succeeded_heard_false hsucceeded)
    · rw [if_neg hn] at hdeletes hsucceeded ⊢
      exact hinv.succeeded n c hc hdeletes hsucceeded
  cleared n c' m hc' hdeletes hcarried := by
    obtain ⟨c, hc, rfl⟩ := h.calls n c' hc'
    have hcall : c.call.deletes uuid = true := by split at hdeletes <;> exact hdeletes
    by_cases hn : n = r.owner ∧ accepted = true
    · obtain ⟨rfl, rfl⟩ := hn
      rw [if_pos rfl] at hcarried
      cases hcarried
      refine hinv.cleared_of_delete h hc hcall (horderly rfl ?_)
      simp [State.deletesNext, h.request, hc, hcall]
    · have hsame : c.carriedOut = some m := by
        split at hcarried
        next hown =>
          cases accepted with
          | true => exact absurd ⟨hown, rfl⟩ hn
          | false => exact hcarried
        next => exact hcarried
      exact (hinv.cleared n c m hc hcall hsame).carriesOut h

end

/-! ## Runs -/

theorem Inv.step {event : Event} (hinv : Inv uuid s) (horderly : Orderly uuid s event)
    (h : process.step s event = .ok s') : Inv uuid s' := by
  cases effect_of_step h with
  | start call =>
    refine hinv.calm ⟨rfl, by simp [State.start], fun n c' hc' => ?_, fun r hr => .inl hr⟩
    rcases getElem?_concat_cases hc' with hc | ⟨rfl, rfl⟩
    · exact .inl ⟨c', hc, .refl (hinv.suits n c' hc)⟩
    · refine .inr ⟨Nat.le_refl _, rfl, rfl, ?_⟩
      rintro rfl
      exact horderly rfl
  | quiet hquiet =>
    refine hinv.calm ⟨hquiet.contents, hquiet.length.ge, fun n c' hc' => .inl ?_, fun r hr => .inl (hquiet.requests ▸ hr)⟩
    obtain ⟨c, hc, rfl | hstretch⟩ := hquiet.calls n c' hc'
    · exact ⟨c', hc, .refl (hinv.suits n c' hc)⟩
    · exact ⟨c, hc, hstretch.goesOn (hinv.suits n c hc)⟩
  | guard hc hcall hphase =>
    exact hinv.calm (hinv.calm_set hc .guarded (.of_phase (by rw [hphase]; rfl) ⟨_, hcall⟩ rfl) rfl rfl fun r hr => .inl hr)
  | @handOver n c writes hc hcall hphase hcurrent =>
    have hrunning : c.phase.isFinished = false := by rw [hphase]; rfl
    have hown : OwnWrites c.call writes := hinv.suits_at hc hphase
    refine hinv.calm (hinv.calm_set hc (.writing none) (.of_phase hrunning hcall rfl) rfl rfl fun r hr => ?_)
    rcases mem_concat_request hr with hr | rfl
    · exact .inl hr
    · exact .inr ⟨c, hc, hown, hrunning⟩
  | @copy n c profile _ hc hphase =>
    have hrunning : c.phase.isFinished = false := by rw [hphase]; rfl
    have hcall : c.call = .migrate profile.uuid := hinv.suits_at hc hphase
    refine hinv.calm (hinv.calm_set hc (.copying profile none) (.of_phase hrunning hcall rfl) rfl rfl fun r hr => ?_)
    rcases mem_concat_request hr with hr | rfl
    · exact .inl hr
    · refine .inr ⟨c, hc, ⟨?_, fun path other hdelete => ?_⟩, hrunning⟩
      · rw [hcall]
        exact isWrite_copyWrites
      · rw [hcall] at hdelete
        cases hdelete
  | @carryOut i accepted _ r hcarries =>
    refine hinv.carriesOut hcarries fun haccepted hdeletes => ?_
    subst haccepted
    exact horderly hdeletes
  | @send n c profile hc hphase =>
    have hcall : c.call = .migrate profile.uuid := hinv.suits_at hc hphase
    exact hinv.calm (hinv.calm_set hc (.updating profile none) (.of_phase (by rw [hphase]; rfl) hcall rfl) rfl rfl fun r hr => .inl hr)
  | applyUpdate happlies =>
    refine hinv.calm ⟨happlies.contents, happlies.length.ge, fun n c' hc' => .inl ?_,
      fun r hr => .inl (happlies.requests ▸ hr)⟩
    obtain ⟨c, hc, rfl | ⟨profile, hphase, rfl⟩⟩ := happlies.calls n c' hc'
    · exact ⟨c', hc, .refl (hinv.suits n c' hc)⟩
    · have hcall : c.call = .migrate profile.uuid := hinv.suits_at hc hphase
      exact ⟨c, hc, .of_phase (by rw [hphase]; rfl) hcall rfl⟩
  | @clean n c p value path left hc hphase =>
    have hcall : ∃ other, c.call = .migrate other := hinv.suits_at hc hphase
    exact hinv.calm (hinv.calm_set hc (.cleaning left) (.of_phase (by rw [hphase]; rfl) hcall rfl) rfl rfl fun r hr => .inl hr)

end

namespace Reference

/-- A network with a password that the agent keeps. -/
def home : Profile where
  uuid := "2c9f"
  label := "home"
  keyManagement := "wpa-psk"
  setting := .wifiSecurity
  credentials := [⟨.psk, SecretFlags.agentOwned, none, true⟩]
  complete := rfl

/-- The same with the password in the profile, as a save has it. -/
def homeSaved : Profile :=
  { home with
    credentials := [⟨.psk, SecretFlags.agentOwned, some (utf8 "correct horse"), true⟩]
    complete := rfl }

theorem no_value (h : (none : Option Bytes).isSome) : SecretFlags.agentOwned &&& SecretFlags.agentOwned = 0 := by
  cases h

def empty : State :=
  State.begin (fun _ => none) (fun _ => ⟨0, fun _ => ⟨SecretFlags.agentOwned, none, no_value⟩⟩) fun _ _ => []

/-- The user is asked for the password. -/
def askHome : Call := .get "/1" "802-11-wireless-security" home 1

def deleteHome : Call := .delete "/1" "2c9f"

def entered (p : Property) : Option Bytes := if p = .psk then some (utf8 "correct horse") else none

/-- The password is saved and deleted. Later the user is asked for it, and it is stored again. -/
def asked : List Event :=
  [.start (.save homeSaved), .prepare 0, .lock 0, .carryOut 0 true, .complete 0,
    .start deleteHome, .prepare 1, .lock 1, .carryOut 0 true, .complete 1,
    .start askHome, .letIn 2, .register 2, .gather 2 (fun _ => none) entered, .lock 2, .carryOut 0 true, .complete 2]

end Reference

end FactorSeal.Wifi
