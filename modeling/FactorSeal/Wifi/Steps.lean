import FactorSeal.Wifi.Agent

/-! # What the steps of the Wi-Fi agent do

A `Stretch` is what one call does between two awaits. Most steps are `Quiet`: a call goes on (and a deletion drops gets),
and neither the vault nor NetworkManager nor the previous keyring notices. `Effect` has the others, and `effect_of_step`
says that there are no more. -/

namespace FactorSeal.Wifi

open Wire State

variable {s s' : State} {c c' : CallState} {n : Nat} {profile : Profile} {writes : List VaultMutation}
  {flags : GetSecretsFlags} {entered stored : Property → Option Bytes}

/-! ## Writes -/

/-- Not a migration. -/
def Call.isAgents : Call → Bool
  | .migrate _ => false
  | _ => true

/-- A write about the connection. -/
def IsWrite (uuid : String) : VaultMutation → Prop
  | .check _ _ => False
  | .put address _ deadline => address.item = uuid ∧ deadline = none
  | .delete address => address.item = uuid

/-- The writes are about the connection of the call, and those of a deletion are all it has. -/
structure OwnWrites (call : Call) (writes : List VaultMutation) : Prop where
  uuid : ∀ m ∈ writes, IsWrite call.uuid m
  deletes : ∀ path uuid, call = .delete path uuid → writes = deleteWrites uuid

theorem exists_of_mapM_eq_some {α β : Type} {f : α → Option β} {l : List α} {l' : List β} (h : l.mapM f = some l')
    {b : β} (hb : b ∈ l') : ∃ a ∈ l, f a = some b := by
  induction l generalizing l' with
  | nil =>
    cases h
    cases hb
  | cons a rest ih =>
    simp only [List.mapM_cons, Option.bind_eq_bind, Option.bind_eq_some_iff] at h
    obtain ⟨first, hfirst, others, hothers, h⟩ := h
    cases h
    rcases List.mem_cons.1 hb with rfl | hb
    · exact ⟨a, by simp, hfirst⟩
    · obtain ⟨a', ha', hf⟩ := ih hothers hb
      exact ⟨a', List.mem_cons_of_mem _ ha', hf⟩

theorem isWrite_getWrite {credential : Credential} {part : List VaultMutation × Bool}
    (h : getWrite profile flags stored entered credential = some part) : ∀ m ∈ part.1, IsWrite profile.uuid m := by
  intro m hm
  have hdeletion : ∀ m ∈ (if credential.flags.agentMaySave then []
      else [VaultMutation.delete (credential.property.address profile.uuid)]), IsWrite profile.uuid m := by
    intro m hm
    split at hm
    · cases hm
    · obtain rfl := List.mem_singleton.1 hm
      rfl
  unfold getWrite at h
  dsimp only at h
  split at h
  · cases h
    exact hdeletion m hm
  · split at h
    · split at h
      · split at h
        · cases h
        · cases h
          rcases List.mem_append.1 hm with hm | hm
          · exact hdeletion m hm
          · split at hm
            · obtain rfl := List.mem_singleton.1 hm
              exact ⟨rfl, rfl⟩
            · cases hm
      · cases h
    · cases h
      exact hdeletion m hm

theorem isWrite_name (profile : Profile) : IsWrite profile.uuid (nameMutation profile) := ⟨rfl, rfl⟩

theorem isWrite_concat {uuid : String} {m : VaultMutation}
    (h : ∀ m ∈ writes, IsWrite uuid m) (hm : IsWrite uuid m) : ∀ m' ∈ writes ++ [m], IsWrite uuid m' := by
  intro m' hm'
  rcases List.mem_append.1 hm' with hm' | hm'
  · exact h m' hm'
  · obtain rfl := List.mem_singleton.1 hm'
    exact hm

theorem ownWrites_get {path settingName : String} (h : getWrites profile flags stored entered = some writes) :
    OwnWrites (.get path settingName profile flags) writes := by
  refine ⟨?_, fun _ _ hcall => by cases hcall⟩
  simp only [getWrites, Option.bind_eq_bind, Option.bind_eq_some_iff] at h
  obtain ⟨parts, hparts, h⟩ := h
  have hall : ∀ m ∈ parts.flatMap Prod.fst, IsWrite profile.uuid m := by
    intro m hm
    obtain ⟨part, hpart, hm⟩ := List.mem_flatMap.1 hm
    obtain ⟨credential, -, hcredential⟩ := exists_of_mapM_eq_some hparts hpart
    exact isWrite_getWrite hcredential m hm
  split at h
  · split at h
    · cases h
      exact isWrite_concat hall (isWrite_name profile)
    · split at h
      · cases h
        exact isWrite_concat hall rfl
      · cases h
        exact hall
  · cases h

theorem ownWrites_save (h : saveWrites profile = some writes) : OwnWrites (.save profile) writes := by
  have hone : ∀ credential m, saveWrite profile credential = some m → IsWrite profile.uuid m := by
    intro credential m hm
    unfold saveWrite at hm
    split at hm
    · cases hm
      rfl
    · split at hm
      · split at hm
        · cases hm
          exact ⟨rfl, rfl⟩
        · cases hm
      · cases hm
        rfl
  refine ⟨?_, fun _ _ hcall => by cases hcall⟩
  simp only [saveWrites, Option.bind_eq_bind, Option.bind_eq_some_iff] at h
  obtain ⟨parts, hparts, h⟩ := h
  cases h
  have hname : IsWrite profile.uuid (if (parts ++ (Property.all.filter (·.setting ≠ profile.setting)).map fun property =>
      VaultMutation.delete (property.address profile.uuid)).any isPut then nameMutation profile
        else .delete (nameAddress profile.uuid)) := by
    split
    · exact isWrite_name profile
    · rfl
  refine isWrite_concat (fun m hm => ?_) hname
  rcases List.mem_append.1 hm with hm | hm
  · obtain ⟨credential, -, hcredential⟩ := exists_of_mapM_eq_some hparts hm
    exact hone credential m hcredential
  · obtain ⟨property, -, rfl⟩ := List.mem_map.1 hm
    rfl

theorem ownWrites_delete (path uuid : String) : OwnWrites (.delete path uuid) (deleteWrites uuid) := by
  refine ⟨isWrite_concat (fun m hm => ?_) rfl, fun _ _ hcall => by cases hcall; rfl⟩
  obtain ⟨property, -, rfl⟩ := List.mem_map.1 hm
  rfl

theorem isWrite_copyWrites {copies : List Copied} :
    ∀ m ∈ copyWrites profile copies, IsWrite profile.uuid m := by
  refine isWrite_concat (fun m hm => ?_) (isWrite_name profile)
  obtain ⟨copy, -, rfl⟩ := List.mem_map.1 hm
  exact ⟨rfl, rfl⟩

/-! ## What a call does between two awaits -/

def Phase.isFinished : Phase → Bool
  | .finished _ => true
  | _ => false

/-- The constructors follow the functions of the same name. -/
inductive Stretch (s : State) (c : CallState) : CallState → Prop where
  | drop (hphase : c.phase.isFinished = false) : Stretch s c { c with phase := .finished false }
  | letIn {path settingName : String} {profile : Profile} {flags : GetSecretsFlags}
      (hcall : c.call = .get path settingName profile flags) (hphase : c.phase = .began) :
      Stretch s c { c with phase := .admitted }
  | register {path settingName : String} {profile : Profile} {flags : GetSecretsFlags}
      (hcall : c.call = .get path settingName profile flags) (hphase : c.phase = .admitted) :
      Stretch s c { c with phase := .registered }
  | gather {path settingName : String} {profile : Profile} {flags : GetSecretsFlags}
      {stored entered : Property → Option Bytes} {writes : List VaultMutation}
      (hcall : c.call = .get path settingName profile flags) (hphase : c.phase = .registered)
      (hwrites : getWrites profile flags stored entered = some writes) : Stretch s c { c with phase := .ready writes }
  | save {profile : Profile} {writes : List VaultMutation} (hcall : c.call = .save profile) (hphase : c.phase = .began)
      (hwrites : saveWrites profile = some writes) : Stretch s c { c with phase := .ready writes }
  | delete {path uuid : String} (hcall : c.call = .delete path uuid) (hphase : c.phase = .began) :
      Stretch s c { c with phase := .ready (deleteWrites uuid) }
  /-- There is nothing to hand over. -/
  | nothing (hcall : c.call.isAgents = true) (hphase : c.phase = .ready []) :
      Stretch s c { c with phase := .writing (some true) }
  | complete {ok : Bool} (hphase : c.phase = .writing (some ok)) : Stretch s c { c with phase := .finished ok }
  | readCredentials {profile : Profile} (hcall : c.call = .migrate profile.uuid) (hphase : c.phase = .guarded)
      (hread : ∀ credential ∈ profile.credentials,
        credential.supplied = ((s.profiles profile.uuid).secrets credential.property).value) :
      Stretch s c { c with phase := .collecting profile profile.credentials }
  | collect {profile : Profile} {credential : Credential} {left : List Credential} {legacyAvailable : Bool}
      {copy : Option Copied} (hphase : c.phase = .collecting profile (credential :: left))
      (hcopy : s.collectOne profile legacyAvailable credential = some copy) :
      Stretch s c { c with phase := .collecting profile left, copies := c.copies ++ copy.toList }
  /-- There is nothing to move. -/
  | collected {profile : Profile} (hphase : c.phase = .collecting profile []) (hcopies : c.copies = []) :
      Stretch s c { c with phase := .finished true }
  | copied {profile : Profile} (hphase : c.phase = .copying profile (some true)) :
      Stretch s c { c with phase := .verifying profile c.copies false }
  | verify {profile : Profile} {copy : Copied} {left : List Copied} {updated : Bool}
      (hphase : c.phase = .verifying profile (copy :: left) updated)
      (hstored : (s.contents (copy.property.address profile.uuid)).map Prod.fst = some copy.value) :
      Stretch s c { c with phase := .verifying profile left updated }
  | verified {profile : Profile} (hphase : c.phase = .verifying profile [] true) :
      Stretch s c { c with phase := .cleaning (State.cleanups c.copies) }
  | updated {profile : Profile} (hphase : c.phase = .updating profile (some true)) :
      Stretch s c { c with phase := .confirming profile }
  | confirmed {profile : Profile} (hphase : c.phase = .confirming profile) :
      Stretch s c { c with phase := .verifying profile c.copies true }
  | cleaned (hphase : c.phase = .cleaning []) : Stretch s c { c with phase := .finished true }

namespace Stretch

theorem call (h : Stretch s c c') : c'.call = c.call := by cases h <;> rfl

theorem generation (h : Stretch s c c') : c'.generation = c.generation := by cases h <;> rfl

theorem carriedOut (h : Stretch s c c') : c'.carriedOut = c.carriedOut := by cases h <;> rfl

theorem running (h : Stretch s c c') : c.phase.isFinished = false := by
  cases h with
  | drop hphase => exact hphase
  | _ =>
    simp only [*]
    rfl

end Stretch

/-- The phases a call goes through, with what they say of it. -/
def Call.Suits (call : Call) : Phase → Prop
  | .ready writes => OwnWrites call writes
  | .writing _ => call.isAgents = true
  | .guarded | .cleaning _ => ∃ uuid, call = .migrate uuid
  | .collecting profile _ | .copying profile _ | .verifying profile _ _ | .updating profile _ | .confirming profile =>
    call = .migrate profile.uuid
  | _ => True

theorem Stretch.suits (h : Stretch s c c') (hc : c.call.Suits c.phase) : c'.call.Suits c'.phase := by
  cases h with
  | drop | letIn | register | complete | collected | cleaned => trivial
  | gather hcall hphase hwrites =>
    show OwnWrites c.call _
    rw [hcall]
    exact ownWrites_get hwrites
  | save hcall hphase hwrites =>
    show OwnWrites c.call _
    rw [hcall]
    exact ownWrites_save hwrites
  | delete hcall hphase =>
    show OwnWrites c.call _
    rw [hcall]
    exact ownWrites_delete _ _
  | nothing hcall hphase => exact hcall
  | readCredentials hcall hphase hread => exact hcall
  | collect hphase _ | copied hphase | verify hphase _ | updated hphase | confirmed hphase =>
    rw [hphase] at hc
    exact hc
  | verified hphase =>
    rw [hphase] at hc
    exact ⟨_, hc⟩

/-! ## Steps that only calls notice -/

/-- The same but for what the calls hold and where they are. -/
structure Unnoticed (s s' : State) : Prop where
  contents : s'.contents = s.contents
  requests : s'.requests = s.requests
  profiles : s'.profiles = s.profiles
  updates : s'.updates = s.updates
  legacy : s'.legacy = s.legacy
  generation : s'.generation = s.generation
  /-- A guard that is released leaves its number. -/
  migrations : ∀ uuid, (s'.migrations uuid).map Prod.fst = (s.migrations uuid).map Prod.fst
  length : s'.calls.length = s.calls.length

/-- Calls go on, and nothing else happens. -/
structure Quiet (s s' : State) : Prop extends Unnoticed s s' where
  calls : ∀ (n : Nat) c', s'.calls[n]? = some c' → ∃ c, s.calls[n]? = some c ∧ (c' = c ∨ Stretch s c c')

theorem map_fst_releaseGuard (migrations : String → Option (Nat × Bool)) (c : CallState) (uuid : String) :
    (releaseGuard migrations c uuid).map Prod.fst = (migrations uuid).map Prod.fst := by
  have hrelease : releaseGuard migrations c = migrations ∨ ∃ other, releaseGuard migrations c =
      Function.update migrations other ((migrations other).map fun m => (m.1, false)) := by
    unfold releaseGuard
    split
    · exact .inl rfl
    · exact .inl rfl
    · exact .inr ⟨_, rfl⟩
    · exact .inl rfl
  rcases hrelease with h | ⟨other, h⟩
  · rw [h]
  · rw [h]
    by_cases huuid : uuid = other
    · subst huuid
      rw [Function.update_self, Option.map_map]
      rfl
    · rw [Function.update_of_ne huuid]

section

variable {s'' : State} {phase : Phase} {calls : List CallState}

theorem Unnoticed.refl (s : State) : Unnoticed s s := ⟨rfl, rfl, rfl, rfl, rfl, rfl, fun _ => rfl, rfl⟩

theorem Unnoticed.trans (h : Unnoticed s s') (h' : Unnoticed s' s'') : Unnoticed s s'' where
  contents := h'.contents.trans h.contents
  requests := h'.requests.trans h.requests
  profiles := h'.profiles.trans h.profiles
  updates := h'.updates.trans h.updates
  legacy := h'.legacy.trans h.legacy
  generation := h'.generation.trans h.generation
  migrations uuid := (h'.migrations uuid).trans (h.migrations uuid)
  length := h'.length.trans h.length

theorem unnoticed_finish (ok : Bool) : Unnoticed s (s.finish n c ok) :=
  ⟨rfl, rfl, rfl, rfl, rfl, rfl, map_fst_releaseGuard s.migrations c, List.length_set⟩

theorem unnoticed_setPhase {writer : Option Nat} {pending : List Pending} :
    Unnoticed s { s.setPhase n c phase with writer, pending } :=
  ⟨rfl, rfl, rfl, rfl, rfl, rfl, fun _ => rfl, List.length_set⟩

/-- The call at a place after a call was set. -/
theorem getElem?_set_cases {m : Nat} {d : CallState} (hd : (calls.set n c')[m]? = some d) :
    (m = n ∧ d = c') ∨ (m ≠ n ∧ calls[m]? = some d) := by
  rw [List.getElem?_set] at hd
  by_cases hm : n = m
  · subst hm
    rw [if_pos rfl] at hd
    split at hd
    · cases hd
      exact .inl ⟨rfl, rfl⟩
    · cases hd
  · rw [if_neg hm] at hd
    exact .inr ⟨Ne.symm hm, hd⟩

theorem getElem?_concat_cases {m : Nat} {d : CallState}
    (hd : (calls ++ [c])[m]? = some d) : calls[m]? = some d ∨ (m = calls.length ∧ d = c) := by
  rw [List.getElem?_append] at hd
  by_cases hm : m < calls.length
  · rw [if_pos hm] at hd
    exact .inl hd
  · rw [if_neg hm] at hd
    obtain ⟨hlt, heq⟩ := List.getElem?_eq_some_iff.1 hd
    simp only [List.length_singleton] at hlt
    refine .inr ⟨by omega, ?_⟩
    rw [← heq, List.getElem_singleton]

/-- One call goes on. -/
theorem Quiet.of_set (hc : s.calls[n]? = some c) (h : Stretch s c c') (hs : Unnoticed s s')
    (hcalls : s'.calls = s.calls.set n c') : Quiet s s' := by
  refine ⟨hs, fun m d hd => ?_⟩
  rw [hcalls] at hd
  rcases getElem?_set_cases hd with ⟨rfl, rfl⟩ | ⟨-, hd⟩
  · exact ⟨c, hc, .inr h⟩
  · exact ⟨d, hd, .inl rfl⟩

theorem quiet_finish (hc : s.calls[n]? = some c) {ok : Bool} (h : Stretch s c { c with phase := .finished ok }) :
    Quiet s (s.finish n c ok) :=
  .of_set hc h (unnoticed_finish ok) rfl

theorem quiet_fail (hc : s.calls[n]? = some c) (h : c.phase.isFinished = false) : Quiet s (s.finish n c false) :=
  quiet_finish hc (.drop h)

theorem quiet_setPhase (hc : s.calls[n]? = some c) (h : Stretch s c { c with phase }) :
    Quiet s (s.setPhase n c phase) :=
  .of_set hc h unnoticed_setPhase rfl

/-! ## Calls that are dropped -/

/-- What dropping does to a call. -/
def Dropped (c c' : CallState) : Prop :=
  c' = c ∨ (c.phase.isFinished = false ∧ c' = { c with phase := .finished false })

theorem Dropped.trans {c'' : CallState} (h : Dropped c c') (h' : Dropped c' c'') : Dropped c c'' := by
  rcases h' with rfl | ⟨hrunning, rfl⟩
  · exact h
  · rcases h with rfl | ⟨-, rfl⟩
    · exact .inr ⟨hrunning, rfl⟩
    · cases hrunning

theorem Dropped.stretch (h : Dropped c c') : c' = c ∨ Stretch s c c' := by
  rcases h with rfl | ⟨hrunning, rfl⟩
  · exact .inl rfl
  · exact .inr (.drop hrunning)

/-- Calls are dropped. -/
structure Drops (s s' : State) : Prop extends Unnoticed s s' where
  calls : ∀ (n : Nat) c', s'.calls[n]? = some c' → ∃ c, s.calls[n]? = some c ∧ Dropped c c'

theorem Drops.refl (s : State) : Drops s s := ⟨.refl s, fun _ c hc => ⟨c, hc, .inl rfl⟩⟩

theorem Drops.trans (h : Drops s s') (h' : Drops s' s'') : Drops s s'' := by
  refine ⟨h.toUnnoticed.trans h'.toUnnoticed, fun n c'' hc'' => ?_⟩
  obtain ⟨c', hc', hd'⟩ := h'.calls n c'' hc''
  obtain ⟨c, hc, hd⟩ := h.calls n c' hc'
  exact ⟨c, hc, hd.trans hd'⟩

theorem Drops.quiet (h : Drops s s') : Quiet s s' := by
  refine ⟨h.toUnnoticed, fun n c' hc' => ?_⟩
  obtain ⟨c, hc, hd⟩ := h.calls n c' hc'
  exact ⟨c, hc, hd.stretch⟩

theorem isFinished_eq_false (h : ∀ ok, phase ≠ .finished ok) : phase.isFinished = false := by
  cases phase with
  | finished ok => exact absurd rfl (h ok)
  | _ => rfl

theorem drops_drop (n : Nat) : Drops s (s.drop n) := by
  unfold drop
  split
  next c hc =>
    split
    · exact .refl s
    next hphase =>
      refine ⟨unnoticed_finish false, fun m d hd => ?_⟩
      rcases getElem?_set_cases hd with ⟨rfl, rfl⟩ | ⟨-, hd⟩
      · exact ⟨c, hc, .inr ⟨isFinished_eq_false hphase, rfl⟩⟩
      · exact ⟨d, hd, .inl rfl⟩
  next => exact .refl s

theorem drops_foldl (ns : List Nat) : Drops s (ns.foldl drop s) := by
  induction ns generalizing s with
  | nil => exact .refl s
  | cons n ns ih => exact (drops_drop n).trans ih

/-! ## All steps -/

theorem quiet_letIn (h : s.letIn n = .ok s') : Quiet s s' := by
  unfold letIn at h
  split at h
  next c hc =>
    split at h
    next path settingName profile flags hcall hphase =>
      cases h
      split
      · exact quiet_fail hc (by rw [hphase]; rfl)
      · exact quiet_setPhase hc (.letIn hcall hphase)
    next => cases h
  next => cases h

theorem quiet_register (h : s.register n = .ok s') : Quiet s s' := by
  unfold register at h
  split at h
  next c hc =>
    split at h
    next path settingName profile flags hcall hphase =>
      cases h
      split
      · exact quiet_fail hc (by rw [hphase]; rfl)
      · exact .of_set hc (.register hcall hphase) unnoticed_setPhase rfl
    next => cases h
  next => cases h

theorem quiet_gather (h : s.gather n stored entered = .ok s') : Quiet s s' := by
  unfold gather at h
  split at h
  next c hc =>
    split at h
    next path settingName profile flags hcall hphase =>
      cases h
      split
      · exact quiet_fail hc (by rw [hphase]; rfl)
      next writes hwrites => exact quiet_setPhase hc (.gather hcall hphase hwrites)
    next => cases h
  next => cases h

theorem quiet_prepare (h : s.prepare n = .ok s') : Quiet s s' := by
  unfold State.prepare at h
  split at h
  next c hc =>
    split at h
    next profile hcall hphase =>
      cases h
      split
      · exact quiet_fail hc (by rw [hphase]; rfl)
      next writes hwrites => exact quiet_setPhase hc (.save hcall hphase hwrites)
    next path uuid hcall hphase =>
      cases h
      -- The gets that are dropped, and then the deletion itself.
      have hdrops := drops_foldl (s := s) (s.canceled path)
      refine ⟨hdrops.toUnnoticed.trans unnoticed_setPhase, fun m d hd => ?_⟩
      rcases getElem?_set_cases hd with ⟨rfl, rfl⟩ | ⟨-, hd⟩
      · exact ⟨c, hc, .inr (.delete hcall hphase)⟩
      · exact hdrops.quiet.calls m d hd
    next => cases h
  next => cases h

theorem quiet_complete (h : s.complete n = .ok s') : Quiet s s' := by
  unfold complete at h
  split at h
  next c hc =>
    split at h
    next ok hphase =>
      cases h
      exact quiet_finish hc (.complete hphase)
    next => cases h
  next => cases h

theorem quiet_readCredentials (h : s.readCredentials n profile = .ok s') : Quiet s s' := by
  unfold readCredentials at h
  split at h
  next c hc =>
    split at h
    next uuid hcall hphase =>
      split at h
      next hread =>
        cases h
        obtain ⟨rfl, hread⟩ := hread
        exact quiet_setPhase hc (.readCredentials hcall hphase fun credential hmem => (hread credential hmem).2)
      next => cases h
    next => cases h
  next => cases h

theorem quiet_copied (h : s.copied n = .ok s') : Quiet s s' := by
  unfold copied at h
  split at h
  next c hc =>
    split at h
    next profile hphase =>
      cases h
      exact quiet_setPhase hc (.copied hphase)
    next profile hphase =>
      cases h
      exact quiet_fail hc (by rw [hphase]; rfl)
    next => cases h
  next => cases h

theorem quiet_updated (h : s.updated n = .ok s') : Quiet s s' := by
  unfold updated at h
  split at h
  next c hc =>
    split at h
    next profile hphase =>
      cases h
      exact quiet_setPhase hc (.updated hphase)
    next profile hphase =>
      cases h
      exact quiet_fail hc (by rw [hphase]; rfl)
    next profile hphase =>
      cases h
      split
      · exact quiet_setPhase hc (.confirmed hphase)
      · exact quiet_fail hc (by rw [hphase]; rfl)
    next => cases h
  next => cases h

end

/-! ## What the others do -/

/-- The call hears what became of its request. -/
def CallState.hear (c : CallState) (accepted : Bool) (begun : Nat) : CallState :=
  { c with
    phase := c.phase.heard accepted
    carriedOut := if accepted then some begun else c.carriedOut }

theorem suits_heard {call : Call} {phase : Phase} (accepted : Bool) (h : call.Suits phase) :
    call.Suits (phase.heard accepted) := by
  unfold Phase.heard
  split
  · exact h
  · exact h
  · exact h

/-- The vault has carried out a request, or refused it. -/
structure CarriesOut (s s' : State) (i : Nat) (accepted : Bool) (r : Request) : Prop where
  request : s.requests[i]? = some r
  contents : s'.contents = if accepted then r.mutations.foldl (Contents.mutate r.owner) s.contents else s.contents
  requests : s'.requests = s.requests.eraseIdx i
  profiles : s'.profiles = s.profiles
  updates : s'.updates = s.updates
  legacy : s'.legacy = s.legacy
  generation : s'.generation = s.generation
  migrations : s'.migrations = s.migrations
  length : s'.calls.length = s.calls.length
  calls : ∀ (n : Nat) c', s'.calls[n]? = some c' → ∃ c, s.calls[n]? = some c ∧
    c' = if n = r.owner then c.hear accepted s.calls.length else c

/-- NetworkManager has applied an update, or rejected it. -/
structure AppliesUpdate (s s' : State) (u : Update) (applied : Bool) : Prop where
  update : u ∈ s.updates
  contents : s'.contents = s.contents
  requests : s'.requests = s.requests
  profiles : s'.profiles = if applied then
    Function.update s.profiles u.uuid ((s.profiles u.uuid).update u.properties) else s.profiles
  updates : ∀ u' ∈ s'.updates, u' ∈ s.updates
  legacy : s'.legacy = s.legacy
  generation : s'.generation = s.generation
  migrations : s'.migrations = s.migrations
  length : s'.calls.length = s.calls.length
  calls : ∀ (n : Nat) c', s'.calls[n]? = some c' → ∃ c, s.calls[n]? = some c ∧ (c' = c ∨
    ∃ profile, c.phase = .updating profile none ∧ c' = { c with phase := .updating profile (some applied) })

section

variable {i : Nat} {accepted : Bool}

theorem carriesOut_of_carryOut (h : s.carryOut i accepted = .ok s') : ∃ r, CarriesOut s s' i accepted r := by
  unfold carryOut at h
  split at h
  next r hr =>
    refine ⟨r, ?_⟩
    cases h
    dsimp only
    split
    next c hc =>
      refine ⟨hr, rfl, rfl, rfl, rfl, rfl, rfl, rfl, List.length_set, fun n c' hc' => ?_⟩
      rcases getElem?_set_cases hc' with ⟨rfl, rfl⟩ | ⟨hn, hc'⟩
      · exact ⟨c, hc, (if_pos rfl).symm⟩
      · exact ⟨c', hc', (if_neg hn).symm⟩
    next hc =>
      refine ⟨hr, rfl, rfl, rfl, rfl, rfl, rfl, rfl, rfl, fun n c' hc' => ⟨c', hc', (if_neg ?_).symm⟩⟩
      rintro rfl
      exact absurd (hc.symm.trans hc') (by simp)
  next => cases h

theorem appliesUpdate_of_applyUpdate (h : s.applyUpdate i accepted = .ok s') :
    ∃ u applied, AppliesUpdate s s' u applied := by
  unfold applyUpdate at h
  split at h
  next u hu =>
    refine ⟨u, accepted && decide (u.version = (s.profiles u.uuid).version), ?_⟩
    have hmem : u ∈ s.updates := List.mem_of_getElem? hu
    have hrest : ∀ u' ∈ s.updates.eraseIdx i, u' ∈ s.updates := fun u' => List.mem_of_mem_eraseIdx
    cases h
    dsimp only
    split
    next c hc =>
      split
      next profile hphase =>
        refine ⟨hmem, rfl, rfl, rfl, hrest, rfl, rfl, rfl, List.length_set, fun n c' hc' => ?_⟩
        rcases getElem?_set_cases hc' with ⟨rfl, rfl⟩ | ⟨-, hc'⟩
        · exact ⟨c, hc, .inr ⟨profile, hphase, rfl⟩⟩
        · exact ⟨c', hc', .inl rfl⟩
      next => exact ⟨hmem, rfl, rfl, rfl, hrest, rfl, rfl, rfl, rfl, fun _ c' hc' => ⟨c', hc', .inl rfl⟩⟩
    next => exact ⟨hmem, rfl, rfl, rfl, hrest, rfl, rfl, rfl, rfl, fun _ c' hc' => ⟨c', hc', .inl rfl⟩⟩
  next => cases h

end

/-- What one step does. -/
inductive Effect (s : State) : Event → State → Prop where
  | start (call : Call) : Effect s (.start call) (s.start call)
  | quiet {event : Event} {s' : State} (h : Quiet s s') : Effect s event s'
  /-- A migration takes the lock and its guard. -/
  | guard {n : Nat} {c : CallState} {uuid : String} (hc : s.calls[n]? = some c) (hcall : c.call = .migrate uuid)
      (hphase : c.phase = .began) :
      Effect s (.lock n) { s.setPhase n c .guarded with
        writer := some n
        generation := s.generation + 1
        migrations := Function.update s.migrations uuid (some (s.generation + 1, true)) }
  /-- A call of the agent takes the lock and hands over its writes. -/
  | handOver {n : Nat} {c : CallState} {writes : List VaultMutation} (hc : s.calls[n]? = some c)
      (hcall : c.call.isAgents = true) (hphase : c.phase = .ready writes)
      (hcurrent : s.outdated c.call.uuid c.generation = false) :
      Effect s (.lock n) { s.setPhase n c (.writing none) with
        writer := some n
        requests := s.requests ++ [⟨n, writes⟩] }
  /-- A migration hands over its copies. -/
  | copy {n : Nat} {c : CallState} {profile : Profile} {legacyAvailable : Bool} (hc : s.calls[n]? = some c)
      (hphase : c.phase = .collecting profile []) :
      Effect s (.collect n legacyAvailable) { s.setPhase n c (.copying profile none) with
        requests := s.requests ++ [⟨n, State.copyWrites profile c.copies⟩] }
  | carryOut {i : Nat} {accepted : Bool} {s' : State} {r : Request} (h : CarriesOut s s' i accepted r) :
      Effect s (.carryOut i accepted) s'
  /-- A migration sends its update. -/
  | send {n : Nat} {c : CallState} {profile : Profile} (hc : s.calls[n]? = some c)
      (hphase : c.phase = .verifying profile [] false) :
      Effect s (.verify n) { s.setPhase n c (.updating profile none) with
        updates := s.updates ++ [⟨n, profile.uuid, c.version, c.copies.map Copied.property⟩] }
  | applyUpdate {i : Nat} {accepted applied : Bool} {s' : State} {u : Update} (h : AppliesUpdate s s' u applied) :
      Effect s (.applyUpdate i accepted) s'
  /-- A migration removes an item of the previous keyring. -/
  | clean {n : Nat} {c : CallState} {p : Property} {value : Bytes} {path : Nat} {left : List (Property × Bytes × Nat)}
      (hc : s.calls[n]? = some c) (hphase : c.phase = .cleaning ((p, value, path) :: left)) :
      Effect s (.clean n) { s.setPhase n c (.cleaning left) with
        legacy := Function.update s.legacy c.call.uuid (Function.update (s.legacy c.call.uuid) p
          ((s.legacy c.call.uuid p).filter fun e => e.1 ≠ path)) }

theorem outdated_of_not_refused (h : ¬ s.refused c = true) : s.outdated c.call.uuid c.generation = false := by
  unfold refused at h
  split at h
  next path settingName profile flags hcall =>
    rw [hcall]
    simp only [Bool.or_eq_true, not_or, Bool.not_eq_true] at h
    exact h.2
  next => exact Bool.not_eq_true _ ▸ h

theorem effect_lock (h : s.lock n = .ok s') : Effect s (.lock n) s' := by
  unfold lock at h
  split at h
  next c hc hwriter =>
    split at h
    next uuid hcall hphase =>
      cases h
      split
      · exact .quiet (quiet_fail hc (by rw [hphase]; rfl))
      · exact .guard hc hcall hphase
    next => cases h
    next writes hphase hcall =>
      cases h
      have hagents : c.call.isAgents = true := by
        unfold Call.isAgents
        split
        next uuid hmigrate => exact absurd hmigrate (hcall uuid)
        next => rfl
      split
      · exact .quiet (quiet_fail hc (by rw [hphase]; rfl))
      next hrefused =>
        split
        next hempty =>
          obtain rfl := List.isEmpty_iff.1 hempty
          exact .quiet (.of_set hc (.nothing hagents hphase) unnoticed_setPhase rfl)
        next => exact .handOver hc hagents hphase (outdated_of_not_refused hrefused)
    next => cases h
  next => cases h

theorem effect_collect {legacyAvailable : Bool} (h : s.collect n legacyAvailable = .ok s') :
    Effect s (.collect n legacyAvailable) s' := by
  unfold collect at h
  split at h
  next c hc =>
    split at h
    next profile credential left hphase =>
      cases h
      split
      · exact .quiet (quiet_fail hc (by rw [hphase]; rfl))
      next copy hcopy => exact .quiet (.of_set hc (.collect hphase hcopy) unnoticed_setPhase rfl)
    next profile hphase =>
      cases h
      split
      next hempty => exact .quiet (quiet_finish hc (.collected hphase (List.isEmpty_iff.1 hempty)))
      next => exact .copy hc hphase
    next => cases h
  next => cases h

theorem effect_verify (h : s.verify n = .ok s') : Effect s (.verify n) s' := by
  unfold verify at h
  split at h
  next c hc =>
    split at h
    next profile copy left updated hphase =>
      cases h
      split
      next hstored => exact .quiet (quiet_setPhase hc (.verify hphase hstored))
      · exact .quiet (quiet_fail hc (by rw [hphase]; rfl))
    next profile hphase =>
      cases h
      exact .send hc hphase
    next profile hphase =>
      cases h
      exact .quiet (quiet_setPhase hc (.verified hphase))
    next => cases h
  next => cases h

theorem effect_clean (h : s.clean n = .ok s') : Effect s (.clean n) s' := by
  unfold clean at h
  split at h
  next c hc =>
    split at h
    next p value path left hphase =>
      cases h
      split
      · exact .clean hc hphase
      · exact .quiet (quiet_fail hc (by rw [hphase]; rfl))
    next hphase =>
      cases h
      exact .quiet (quiet_finish hc (.cleaned hphase))
    next => cases h
  next => cases h

theorem effect_of_step {event : Event} (h : process.step s event = .ok s') : Effect s event s' := by
  cases event with
  | start call =>
    cases h
    exact .start call
  | letIn n => exact .quiet (quiet_letIn h)
  | register n => exact .quiet (quiet_register h)
  | gather n stored entered => exact .quiet (quiet_gather h)
  | prepare n => exact .quiet (quiet_prepare h)
  | lock n => exact effect_lock h
  | carryOut i accepted =>
    obtain ⟨r, hr⟩ := carriesOut_of_carryOut h
    exact .carryOut hr
  | complete n => exact .quiet (quiet_complete h)
  | fail n =>
    cases h
    exact .quiet (drops_drop n).quiet
  | readCredentials n profile => exact .quiet (quiet_readCredentials h)
  | collect n legacyAvailable => exact effect_collect h
  | copied n => exact .quiet (quiet_copied h)
  | verify n => exact effect_verify h
  | applyUpdate i accepted =>
    obtain ⟨u, applied, hu⟩ := appliesUpdate_of_applyUpdate h
    exact .applyUpdate hu
  | updated n => exact .quiet (quiet_updated h)
  | clean n => exact effect_clean h

end FactorSeal.Wifi
