import FactorSeal.Wifi.Steps

/-! # Migrations lose nothing

A credential is in the profile, in the vault, or in the previous keyring. A migration moves it by steps that keep it where
it can be read (`Places.Move`), and calls of the agent that began before the migration took its guard are refused, so
that they cannot interfere (`run_readable`). A call that begins while the migration has its guard is not refused: a save
with the profile as it was before the update waits for the lock, and then removes the copy from the vault
(`late_save_removes`). -/

namespace FactorSeal.Wifi

open Wire Function State List

/-! ## Where a credential is -/

structure Places where
  profile : Option Bytes
  vault : Option Bytes
  previous : List (Nat × Bytes)

namespace Places

variable {l l' : Places} {x : Bytes}

def Readable (l : Places) (x : Bytes) : Prop :=
  l.profile = some x ∨ l.vault = some x ∨ ∃ path, (path, x) ∈ l.previous

/-- The value can be read, and neither the profile nor the vault has another. -/
structure Kept (l : Places) (x : Bytes) : Prop where
  profile : ∀ y, l.profile = some y → y = x
  vault : ∀ y, l.vault = some y → y = x
  somewhere : l.profile = some x ∨ l.vault = some x ∨ (l.previous ≠ [] ∧ ∀ e ∈ l.previous, e.2 = x)

theorem Kept.readable (h : l.Kept x) : l.Readable x := by
  rcases h.somewhere with hprofile | hvault | ⟨hne, hall⟩
  · exact .inl hprofile
  · exact .inr (.inl hvault)
  · obtain ⟨⟨path, value⟩, hmem⟩ := exists_mem_of_ne_nil _ hne
    obtain rfl : value = x := hall _ hmem
    exact .inr (.inr ⟨path, hmem⟩)

/-- There is only one such value. -/
theorem Kept.unique {y : Bytes} (hx : l.Kept x) (hy : l.Kept y) : x = y := by
  rcases hx.somewhere with hprofile | hvault | ⟨hne, hall⟩
  · exact hy.profile x hprofile
  · exact hy.vault x hvault
  · rcases hy.somewhere with hprofile | hvault | ⟨-, hall'⟩
    · exact (hx.profile y hprofile).symm
    · exact (hx.vault y hvault).symm
    · obtain ⟨e, he⟩ := exists_mem_of_ne_nil _ hne
      exact (hall e he).symm.trans (hall' e he)

/-- What a migration does to a credential: a copy in the vault, and with the copy there an update of the profile and the
removal from the previous keyring. -/
inductive Move (l : Places) : Places → Prop where
  | stay : Move l l
  | copy {x : Bytes} (h : l.Kept x) : Move l { l with vault := some x }
  | update {x : Bytes} (h : l.Kept x) (hvault : l.vault = some x) : Move l { l with profile := none }
  | clean {x : Bytes} (h : l.Kept x) (hvault : l.vault = some x) (previous : List (Nat × Bytes)) :
      Move l { l with previous }

theorem Move.kept (h : Move l l') (hx : l.Kept x) : l'.Kept x := by
  cases h with
  | stay => exact hx
  | copy hy =>
    obtain rfl := hx.unique hy
    refine ⟨hx.profile, fun y hy => ?_, .inr (.inl rfl)⟩
    cases hy
    rfl
  | update hy hvault =>
    obtain rfl := hx.unique hy
    exact ⟨fun y hy => (by cases hy), hx.vault, .inr (.inl hvault)⟩
  | clean hy hvault previous =>
    obtain rfl := hx.unique hy
    exact ⟨hx.profile, hx.vault, .inr (.inl hvault)⟩

theorem Move.vault (h : Move l l') (hvault : l.vault = some x) : l'.vault = some x := by
  cases h with
  | copy hy =>
    obtain rfl := hy.vault x hvault
    rfl
  | _ => exact hvault

/-- What NetworkManager answered with: the value is still in the profile, or it has been moved to the vault. -/
def Supplied (l : Places) : Option Bytes → Prop
  | none => l.profile = none
  | some x => l.profile = some x ∨ (l.profile = none ∧ l.vault = some x)

theorem supplied_profile (l : Places) : l.Supplied l.profile := by
  unfold Supplied
  split
  next h => exact h
  next x h => exact .inl h

theorem Move.supplied (h : Move l l') {value : Option Bytes} (hs : l.Supplied value) : l'.Supplied value := by
  cases value with
  | none =>
    cases h with
    | update _ _ => rfl
    | _ => exact hs
  | some x =>
    rcases hs with hprofile | ⟨hprofile, hvault⟩
    · cases h with
      | update hy hvault =>
        obtain rfl := hy.profile x hprofile
        exact .inr ⟨rfl, hvault⟩
      | _ => exact .inl hprofile
    · refine .inr ⟨?_, h.vault hvault⟩
      cases h with
      | update _ _ => rfl
      | _ => exact hprofile

end Places

def State.places (s : State) (uuid : String) (p : Property) : Places :=
  ⟨((s.profiles uuid).secrets p).value, (s.contents (p.address uuid)).map Prod.fst, s.legacy uuid p⟩

theorem kept_of_collectOne {s : State} {profile : Profile} {legacyAvailable : Bool} {credential : Credential}
    {copy : Copied} (h : s.collectOne profile legacyAvailable credential = some (some copy))
    (hs : (s.places profile.uuid credential.property).Supplied credential.supplied) :
    (s.places profile.uuid copy.property).Kept copy.value := by
  unfold collectOne at h
  split at h
  · cases h
  dsimp only at h
  generalize hlegacy : (if legacyAvailable = true then s.legacy profile.uuid credential.property else []) = old at h
  split at h
  · split at h <;> cases h
  next value hsource =>
    split at h
    next hchecked =>
      cases h
      simp only [Bool.and_eq_true, all_eq_true, decide_eq_true_eq] at hchecked
      obtain ⟨⟨-, hstored⟩, hold⟩ := hchecked
      have hvault : ∀ y, (s.places profile.uuid credential.property).vault = some y → y = value := by
        intro y hy
        have hy : (s.contents (credential.property.address profile.uuid)).map Prod.fst = some y := hy
        rw [hy] at hstored
        simpa using hstored
      cases hsupplied : credential.supplied with
      | some x =>
        rw [hsupplied] at hs hsource
        cases hsource
        rcases hs with hprofile | ⟨hprofile, hmoved⟩
        · refine ⟨fun y hy => ?_, hvault, .inl hprofile⟩
          rw [hprofile] at hy
          cases hy
          rfl
        · refine ⟨fun y hy => ?_, hvault, .inr (.inl hmoved)⟩
          rw [hprofile] at hy
          cases hy
      | none =>
        rw [hsupplied] at hs hsource
        refine ⟨fun y hy => ?_, hvault, ?_⟩
        · rw [show _ = none from hs] at hy
          cases hy
        · cases old with
          | nil =>
            split at hsource
            · exact .inr (.inl hsource)
            · cases hsource
          | cons e rest =>
            have hprevious : s.legacy profile.uuid credential.property = e :: rest := by
              split at hlegacy
              · exact hlegacy
              · cases hlegacy
            cases hsource
            exact .inr (.inr ⟨by simp [places, hprevious], by simpa [places, hprevious] using hold⟩)
    next => cases h

/-! ## What a migration knows -/

section

variable {uuid : String} {s s' : State} {c c' : CallState} {copies : List Copied} {phase : Phase} {n : Nat}
  {accepted : Bool}

/-- The copies are in the vault. -/
def Secured (uuid : String) (s : State) (copies : List Copied) : Prop :=
  ∀ copy ∈ copies, (s.places uuid copy.property).vault = some copy.value

/-- What a migration relies on, in each phase. -/
def Relies (uuid : String) (s : State) (copies : List Copied) : Phase → Prop
  | .collecting _ left => ∀ credential ∈ left, (s.places uuid credential.property).Supplied credential.supplied
  | .verifying _ left false => Secured uuid s (copies.filter (· ∉ left))
  | .verifying _ _ true | .updating _ _ | .confirming _ | .finished true => Secured uuid s copies
  | .cleaning left => Secured uuid s copies ∧ ∀ item ∈ left, ∃ copy ∈ copies, copy.property = item.1
  | _ => True

/-- A migration that has had its guard. -/
structure Guarded (uuid : String) (s : State) (c : CallState) : Prop where
  guarded : s.migrations uuid ≠ none
  kept : ∀ copy ∈ c.copies, (s.places uuid copy.property).Kept copy.value
  relies : Relies uuid s c.copies c.phase

/-- A migration before its guard, or behind it. -/
def MigrationSafe (uuid : String) (s : State) (c : CallState) : Prop :=
  (c.copies = [] ∧ (c.phase = .began ∨ c.phase = .finished false)) ∨ Guarded uuid s c

theorem MigrationSafe.guarded (h : MigrationSafe uuid s c) (hbegan : c.phase ≠ .began)
    (hrunning : c.phase.isFinished = false) : Guarded uuid s c := by
  rcases h with ⟨-, hphase | hphase⟩ | h
  · exact absurd hphase hbegan
  · rw [hphase] at hrunning
    cases hrunning
  · exact h

/-- Stores that a step leaves to a migration. -/
def Moves (uuid : String) (s s' : State) : Prop := ∀ p, (s.places uuid p).Move (s'.places uuid p)

theorem Secured.move (h : Secured uuid s copies) (hmoves : Moves uuid s s') :
    Secured uuid s' copies := fun copy hcopy => (hmoves copy.property).vault (h copy hcopy)

theorem Relies.move (h : Relies uuid s copies phase) (hmoves : Moves uuid s s') : Relies uuid s' copies phase := by
  unfold Relies at h ⊢
  split at h
  · exact fun credential hmem => (hmoves _).supplied (h credential hmem)
  · exact h.move hmoves
  · exact h.move hmoves
  · exact h.move hmoves
  · exact h.move hmoves
  · exact h.move hmoves
  · exact ⟨h.1.move hmoves, h.2⟩
  · trivial

theorem Guarded.move (h : Guarded uuid s c) (hmoves : Moves uuid s s') (hguarded : s'.migrations uuid ≠ none) :
    Guarded uuid s' c :=
  ⟨hguarded, fun copy hcopy => (hmoves _).kept (h.kept copy hcopy), h.relies.move hmoves⟩

/-! ## A migration goes on -/

theorem Guarded.stretch (h : Guarded uuid s c) (hcall : c.call = .migrate uuid) (hsuits : c.call.Suits c.phase)
    (hstretch : Stretch s c c') : Guarded uuid s c' := by
  have hrelies := h.relies
  cases hstretch with
  | drop => exact ⟨h.guarded, h.kept, trivial⟩
  | letIn hother _ | register hother _ | gather hother _ _ | save hother _ _ | delete hother _ =>
    rw [hcall] at hother
    cases hother
  | nothing hagents _ =>
    rw [hcall] at hagents
    cases hagents
  | complete hphase =>
    rw [hphase, hcall] at hsuits
    cases hsuits
  | readCredentials hprofile hphase hread =>
    refine ⟨h.guarded, h.kept, fun credential hmem => ?_⟩
    rw [hcall] at hprofile
    cases hprofile
    rw [hread credential hmem]
    exact Places.supplied_profile _
  | @collect profile credential left legacyAvailable copy hphase hcopy =>
    rw [hphase] at hrelies hsuits
    have hprofile : c.call = .migrate profile.uuid := hsuits
    rw [hcall] at hprofile
    cases hprofile
    refine ⟨h.guarded, fun copy' hmem => ?_, fun credential' hmem => hrelies credential' (mem_cons_of_mem _ hmem)⟩
    rcases mem_append.1 hmem with hmem | hmem
    · exact h.kept copy' hmem
    · obtain rfl := Option.mem_toList.1 hmem
      exact kept_of_collectOne hcopy (hrelies credential mem_cons_self)
  | collected _ hcopies =>
    refine ⟨h.guarded, h.kept, fun copy hcopy => ?_⟩
    have hcopy : copy ∈ c.copies := hcopy
    rw [hcopies] at hcopy
    cases hcopy
  | copied hphase =>
    refine ⟨h.guarded, h.kept, fun copy hcopy => ?_⟩
    simp at hcopy
  | @verify profile copy left updated hphase hstored =>
    rw [hphase] at hrelies hsuits
    have hprofile : c.call = .migrate profile.uuid := hsuits
    rw [hcall] at hprofile
    cases hprofile
    refine ⟨h.guarded, h.kept, ?_⟩
    cases updated with
    | true => exact hrelies
    | false =>
      intro copy' hcopy'
      by_cases hsame : copy' = copy
      · subst hsame
        exact hstored
      · refine hrelies copy' ?_
        simp only [mem_filter, decide_eq_true_eq, mem_cons, not_or] at hcopy' ⊢
        exact ⟨hcopy'.1, hsame, hcopy'.2⟩
  | verified hphase =>
    rw [hphase] at hrelies
    refine ⟨h.guarded, h.kept, hrelies, fun item hitem => ?_⟩
    obtain ⟨copy, hcopy, hitem⟩ := mem_flatMap.1 hitem
    obtain ⟨path, -, rfl⟩ := mem_map.1 hitem
    exact ⟨copy, hcopy, rfl⟩
  | updated hphase | confirmed hphase =>
    rw [hphase] at hrelies
    exact ⟨h.guarded, h.kept, hrelies⟩
  | cleaned hphase =>
    rw [hphase] at hrelies
    exact ⟨h.guarded, h.kept, hrelies.1⟩

theorem MigrationSafe.stretch (h : MigrationSafe uuid s c) (hcall : c.call = .migrate uuid)
    (hsuits : c.call.Suits c.phase) (hstretch : Stretch s c c') : MigrationSafe uuid s c' := by
  rcases h with ⟨hcopies, hphase | hphase⟩ | h
  · -- Before its guard it can only be dropped.
    cases hstretch with
    | drop => exact .inl ⟨hcopies, .inr rfl⟩
    | letIn hother _ | save hother _ _ | delete hother _ =>
      rw [hcall] at hother
      cases hother
    | register _ hother | gather _ hother _ | nothing _ hother | complete hother | readCredentials _ hother _
    | collect hother _ | collected hother _ | copied hother | verify hother _ | verified hother | updated hother
    | confirmed hother | cleaned hother =>
      rw [hphase] at hother
      cases hother
  · have hrunning := hstretch.running
    rw [hphase] at hrunning
    cases hrunning
  · exact .inr (h.stretch hcall hsuits hstretch)

/-! ## All of them -/

/-- A mutation that only copies a credential which is kept. -/
def Harmless (uuid : String) (s : State) (m : VaultMutation) : Prop :=
  ∀ p : Property, mutationAddress m = p.address uuid →
    ∃ x d, m = .put (p.address uuid) x d ∧ (s.places uuid p).Kept x

theorem Harmless.move {m : VaultMutation} (h : Harmless uuid s m) (hmoves : Moves uuid s s') : Harmless uuid s' m := by
  intro p hp
  obtain ⟨x, d, hm, hkept⟩ := h p hp
  exact ⟨x, d, hm, (hmoves p).kept hkept⟩

theorem harmless_of_isWrite {m : VaultMutation} {other : String} (h : IsWrite other m) (hother : other ≠ uuid) :
    Harmless uuid s m := by
  intro p hp
  refine absurd ?_ hother
  have hitem : (mutationAddress m).item = other := by
    cases m with
    | check _ _ => cases h
    | put _ _ _ => exact h.1
    | delete _ => exact h
  rw [← hitem, hp]
  rfl

structure Safe (uuid : String) (s : State) : Prop where
  suits : ∀ (n : Nat) c, s.calls[n]? = some c → c.call.Suits c.phase
  bound : ∀ (n : Nat) c, s.calls[n]? = some c → c.generation ≤ s.generation
  /-- The calls of the agent began before the guard was taken. -/
  agents : ∀ (n : Nat) c g, s.calls[n]? = some c → c.call.uuid = uuid → c.call.isAgents = true →
    (s.migrations uuid).map Prod.fst = some g → c.generation < g
  migrations : ∀ (n : Nat) c, s.calls[n]? = some c → c.call = .migrate uuid → MigrationSafe uuid s c
  requests : s.migrations uuid ≠ none → ∀ r ∈ s.requests, ∀ m ∈ r.mutations, Harmless uuid s m
  updates : ∀ u ∈ s.updates, u.uuid = uuid → s.migrations uuid ≠ none ∧
    ∀ p ∈ u.properties, ∃ x, (s.places uuid p).Kept x ∧ (s.places uuid p).vault = some x

theorem Safe.begin (contents : Contents) (profiles : String → ManagedProfile)
    (legacy : String → Property → List (Nat × Bytes)) : Safe uuid (State.begin contents profiles legacy) where
  suits n c hc := by simp [State.begin] at hc
  bound n c hc := by simp [State.begin] at hc
  agents n c g hc := by simp [State.begin] at hc
  migrations n c hc := by simp [State.begin] at hc
  requests h := absurd rfl h
  updates u hu := by simp [State.begin] at hu

/-- What a call does in a step, as far as migrations of the connection are concerned. -/
structure Advances (uuid : String) (s : State) (c c' : CallState) : Prop where
  call : c'.call = c.call
  generation : c'.generation = c.generation
  suits : c'.call.Suits c'.phase
  safe : c.call = .migrate uuid → MigrationSafe uuid s c → MigrationSafe uuid s c'

theorem Advances.refl (h : c.call.Suits c.phase) : Advances uuid s c c := ⟨rfl, rfl, h, fun _ => id⟩

theorem Stretch.advances (h : Stretch s c c') (hc : c.call.Suits c.phase) : Advances uuid s c c' :=
  ⟨h.call, h.generation, h.suits hc, fun hcall hsafe => hsafe.stretch hcall hc h⟩

/-- A running call takes another phase that relies on no more. -/
theorem Advances.of_phase (phase : Phase) (hbegan : c.phase ≠ .began) (hrunning : c.phase.isFinished = false)
    (hsuits : c.call.Suits phase) (hrelies : c.call = .migrate uuid → Relies uuid s c.copies c.phase →
      Relies uuid s c.copies phase) : Advances uuid s c { c with phase } := by
  refine ⟨rfl, rfl, hsuits, fun hcall hsafe => ?_⟩
  have hguarded := hsafe.guarded hbegan hrunning
  exact .inr ⟨hguarded.guarded, hguarded.kept, hrelies hcall hguarded.relies⟩

theorem ne_none_of_map_fst {o o' : Option (Nat × Bool)} (h : o'.map Prod.fst = o.map Prod.fst) (ho : o ≠ none) :
    o' ≠ none := by
  rintro rfl
  cases o with
  | none => exact ho rfl
  | some m => cases h

/-- A step in which no guard is taken and no call begins. -/
theorem Safe.next (h : Safe uuid s) (hmoves : s.migrations uuid ≠ none → Moves uuid s s')
    (hmigrations : (s'.migrations uuid).map Prod.fst = (s.migrations uuid).map Prod.fst)
    (hgeneration : s.generation ≤ s'.generation)
    (hcalls : ∀ (n : Nat) c', s'.calls[n]? = some c' → ∃ c, s.calls[n]? = some c ∧ Advances uuid s c c')
    (hrequests : s.migrations uuid ≠ none → ∀ r ∈ s'.requests, r ∈ s.requests ∨ ∀ m ∈ r.mutations, Harmless uuid s m)
    (hupdates : ∀ u ∈ s'.updates, u ∈ s.updates ∨ (u.uuid = uuid → s.migrations uuid ≠ none ∧
      ∀ p ∈ u.properties, ∃ x, (s.places uuid p).Kept x ∧ (s.places uuid p).vault = some x)) : Safe uuid s' where
  suits n c' hc' := by
    obtain ⟨c, -, hadvances⟩ := hcalls n c' hc'
    exact hadvances.suits
  bound n c' hc' := by
    obtain ⟨c, hc, hadvances⟩ := hcalls n c' hc'
    rw [hadvances.generation]
    exact (h.bound n c hc).trans hgeneration
  agents n c' g hc' huuid hagents hg := by
    obtain ⟨c, hc, hadvances⟩ := hcalls n c' hc'
    rw [hadvances.call] at huuid hagents
    rw [hadvances.generation]
    exact h.agents n c g hc huuid hagents (hmigrations ▸ hg)
  migrations n c' hc' hcall := by
    obtain ⟨c, hc, hadvances⟩ := hcalls n c' hc'
    rw [hadvances.call] at hcall
    rcases hadvances.safe hcall (h.migrations n c hc hcall) with hfree | hguarded
    · exact .inl hfree
    · exact .inr (hguarded.move (hmoves hguarded.guarded) (ne_none_of_map_fst hmigrations hguarded.guarded))
  requests hguarded r hr m hm := by
    have hbefore := ne_none_of_map_fst hmigrations.symm hguarded
    rcases hrequests hbefore r hr with hr | hharmless
    · exact (h.requests hbefore r hr m hm).move (hmoves hbefore)
    · exact (hharmless m hm).move (hmoves hbefore)
  updates u hu huuid := by
    have hsecured : s.migrations uuid ≠ none ∧
        ∀ p ∈ u.properties, ∃ x, (s.places uuid p).Kept x ∧ (s.places uuid p).vault = some x := by
      rcases hupdates u hu with hu | hsecured
      · exact h.updates u hu huuid
      · exact hsecured huuid
    obtain ⟨hguarded, hsecured⟩ := hsecured
    refine ⟨ne_none_of_map_fst hmigrations hguarded, fun p hp => ?_⟩
    obtain ⟨x, hkept, hvault⟩ := hsecured p hp
    exact ⟨x, (hmoves hguarded p).kept hkept, (hmoves hguarded p).vault hvault⟩

/-- Stores that do not change. -/
theorem moves_of_same (hcontents : s'.contents = s.contents) (hprofiles : s'.profiles = s.profiles)
    (hlegacy : s'.legacy = s.legacy) : Moves uuid s s' := by
  intro p
  rw [show s'.places uuid p = s.places uuid p by simp [places, hcontents, hprofiles, hlegacy]]
  exact .stay

theorem Safe.advances_set (h : Safe uuid s) (hc : s.calls[n]? = some c) (hadvances : Advances uuid s c c')
    {m : Nat} {d : CallState} (hd : (s.calls.set n c')[m]? = some d) :
    ∃ c, s.calls[m]? = some c ∧ Advances uuid s c d := by
  rcases getElem?_set_cases hd with ⟨rfl, rfl⟩ | ⟨-, hd⟩
  · exact ⟨c, hc, hadvances⟩
  · exact ⟨d, hd, .refl (h.suits m d hd)⟩

/-! ## Each kind of step -/

/-- Calls of the agent for the connection begin before a migration of it has taken its guard, and the first one to do so
finds no request about the connection with the vault. -/
def Careful (uuid : String) (s : State) : Event → Prop
  | .start call => call.uuid = uuid → call.isAgents = true → s.migrations uuid = none
  | .lock n => (s.calls[n]?.any fun c => !c.call.isAgents && c.call.uuid = uuid) = true → s.migrations uuid = none →
    ∀ r ∈ s.requests, ∀ m ∈ r.mutations, (mutationAddress m).item ≠ uuid
  | _ => True

theorem Safe.start (h : Safe uuid s) {call : Call} (hcareful : Careful uuid s (.start call)) :
    Safe uuid (s.start call) where
  suits n c hc := by
    rcases getElem?_concat_cases hc with hc | ⟨-, rfl⟩
    · exact h.suits n c hc
    · trivial
  bound n c hc := by
    rcases getElem?_concat_cases hc with hc | ⟨-, rfl⟩
    · exact h.bound n c hc
    · exact Nat.le_refl _
  agents n c g hc huuid hagents hg := by
    rcases getElem?_concat_cases hc with hc | ⟨-, rfl⟩
    · exact h.agents n c g hc huuid hagents hg
    · have hnone : s.migrations uuid = none := hcareful huuid hagents
      have hg : (s.migrations uuid).map Prod.fst = some g := hg
      rw [hnone] at hg
      cases hg
  migrations n c hc hcall := by
    rcases getElem?_concat_cases hc with hc | ⟨-, rfl⟩
    · rcases h.migrations n c hc hcall with hfree | hguarded
      · exact .inl hfree
      · exact .inr (hguarded.move (moves_of_same rfl rfl rfl) hguarded.guarded)
    · exact .inl ⟨rfl, .inl rfl⟩
  requests hguarded r hr m hm := (h.requests hguarded r hr m hm).move (moves_of_same rfl rfl rfl)
  updates := h.updates

/-- The migration of this connection takes its guard. -/
theorem Safe.guard (h : Safe uuid s) {n : Nat} (hc : s.calls[n]? = some c) (hcall : c.call = .migrate uuid)
    (hcareful : Careful uuid s (.lock n)) (hgenerations : s'.generation = s.generation + 1)
    (hmigrations : s'.migrations = update s.migrations uuid (some (s.generation + 1, true)))
    (hcalls : s'.calls = s.calls.set n { c with phase := .guarded }) (hmoves : Moves uuid s s')
    (hrequests : s'.requests = s.requests) (hupdates : s'.updates = s.updates) : Safe uuid s' := by
  have hguarded : s'.migrations uuid ≠ none := by simp [hmigrations]
  refine ⟨fun m d hd => ?_, fun m d hd => ?_, fun m d g hd _ _ hg => ?_, fun m d hd hd' => ?_, fun _ r hr m hm => ?_,
    fun u hu huuid => ⟨hguarded, fun p hp => ?_⟩⟩
  · rw [hcalls] at hd
    rcases getElem?_set_cases hd with ⟨rfl, rfl⟩ | ⟨-, hd⟩
    · exact ⟨uuid, hcall⟩
    · exact h.suits m d hd
  · rw [hcalls] at hd
    rw [hgenerations]
    rcases getElem?_set_cases hd with ⟨rfl, rfl⟩ | ⟨-, hd⟩
    · exact (h.bound m c hc).trans (Nat.le_succ _)
    · exact (h.bound m d hd).trans (Nat.le_succ _)
  · rw [hcalls] at hd
    rw [hmigrations, update_self] at hg
    cases hg
    rcases getElem?_set_cases hd with ⟨rfl, rfl⟩ | ⟨-, hd⟩
    · exact Nat.lt_succ_of_le (h.bound m c hc)
    · exact Nat.lt_succ_of_le (h.bound m d hd)
  · rw [hcalls] at hd
    rcases getElem?_set_cases hd with ⟨rfl, rfl⟩ | ⟨-, hd⟩
    · refine .inr ⟨hguarded, fun copy hcopy => ?_, trivial⟩
      rcases h.migrations m c hc hcall with ⟨hcopies, -⟩ | hbefore
      · have hcopy : copy ∈ c.copies := hcopy
        rw [hcopies] at hcopy
        cases hcopy
      · exact (hmoves _).kept (hbefore.kept copy hcopy)
    · rcases h.migrations m d hd hd' with hfree | hbefore
      · exact .inl hfree
      · exact .inr (hbefore.move hmoves hguarded)
  · rw [hrequests] at hr
    by_cases hnone : s.migrations uuid = none
    · intro p hp
      have hother := hcareful (by simp [hc, hcall, Call.isAgents, Call.uuid]) hnone r hr m hm
      rw [hp] at hother
      exact absurd rfl hother
    · exact (h.requests hnone r hr m hm).move hmoves
  · rw [hupdates] at hu
    obtain ⟨x, hkept, hvault⟩ := (h.updates u hu huuid).2 p hp
    exact ⟨x, (hmoves p).kept hkept, (hmoves p).vault hvault⟩

/-- A call of the agent hands over writes: they are about another connection, or there was no migration yet. -/
theorem Safe.harmless_of_current (h : Safe uuid s) (hc : s.calls[n]? = some c)
    (hagents : c.call.isAgents = true) (hcurrent : s.outdated c.call.uuid c.generation = false)
    {writes : List VaultMutation} (hown : OwnWrites c.call writes) (hguarded : s.migrations uuid ≠ none) :
    ∀ m ∈ writes, Harmless uuid s m := by
  intro m hm
  refine harmless_of_isWrite (hown.uuid m hm) fun huuid => ?_
  obtain ⟨⟨g, active⟩, hg⟩ := Option.ne_none_iff_exists'.1 hguarded
  have hlt := h.agents n c g hc huuid hagents (by rw [hg]; rfl)
  rw [outdated, huuid, hg] at hcurrent
  simp at hcurrent
  omega

theorem Guarded.harmless_copyWrites (h : Guarded uuid s c) {profile : Profile} (hprofile : profile.uuid = uuid) :
    ∀ m ∈ copyWrites profile c.copies, Harmless uuid s m := by
  intro m hm p hp
  rcases mem_append.1 hm with hm | hm
  · obtain ⟨copy, hcopy, rfl⟩ := mem_map.1 hm
    obtain ⟨rfl, -⟩ := Property.address_inj hp
    exact ⟨copy.value, none, by rw [hprofile], h.kept copy hcopy⟩
  · obtain rfl := mem_singleton.1 hm
    exact absurd hp (nameAddress_ne p uuid profile.uuid)

/-- What a batch stores at an address of which it only has harmless writes. -/
theorem foldl_mutate_of_puts (author : Nat) (contents : Contents) {address : WireSecretAddress} {P : Bytes → Prop}
    {ms : List VaultMutation}
    (h : ∀ m ∈ ms, mutationAddress m = address → ∃ x d, m = .put address x d ∧ P x) :
    ms.foldl (Contents.mutate author) contents address = contents address ∨
      ∃ x, P x ∧ ms.foldl (Contents.mutate author) contents address = some (x, author) := by
  induction ms generalizing contents with
  | nil => exact .inl rfl
  | cons m ms ih =>
    have hstep : contents.mutate author m address = contents address ∨
        ∃ x, P x ∧ contents.mutate author m address = some (x, author) := by
      by_cases hm : mutationAddress m = address
      · obtain ⟨x, d, rfl, hx⟩ := h m mem_cons_self hm
        exact .inr ⟨x, hx, update_self ..⟩
      · refine .inl ?_
        cases m with
        | check _ _ => rfl
        | put _ _ _ => exact update_of_ne (Ne.symm hm) ..
        | delete _ => exact update_of_ne (Ne.symm hm) ..
    rcases ih (contents.mutate author m) fun m hm => h m (mem_cons_of_mem _ hm) with hrest | hrest
    · rcases hstep with hstep | ⟨x, hx, hstep⟩
      · exact .inl (hrest.trans hstep)
      · exact .inr ⟨x, hx, hrest.trans hstep⟩
    · exact .inr hrest

theorem Safe.moves_carryOut (h : Safe uuid s) {i : Nat} {r : Request}
    (hcarries : CarriesOut s s' i accepted r) (hguarded : s.migrations uuid ≠ none) : Moves uuid s s' := by
  intro p
  have hsame : s'.places uuid p = { s.places uuid p with vault := (s'.contents (p.address uuid)).map Prod.fst } := by
    simp [places, hcarries.profiles, hcarries.legacy]
  rw [hsame, hcarries.contents]
  cases accepted with
  | false => exact .stay
  | true =>
    rw [if_pos rfl]
    rcases foldl_mutate_of_puts r.owner s.contents
      (fun m hm => h.requests hguarded r (mem_of_getElem? hcarries.request) m hm p) with hold | ⟨x, hkept, hnew⟩
    · rw [hold]
      exact .stay
    · rw [hnew]
      exact .copy hkept

theorem value_update (profile : ManagedProfile) (properties : List Property) (p : Property) :
    ((profile.update properties).secrets p).value =
      if p ∈ properties then none else (profile.secrets p).value := by
  unfold ManagedProfile.update
  dsimp only
  split <;> rfl

theorem Safe.moves_applyUpdate (h : Safe uuid s) {u : Update} {applied : Bool}
    (happlies : AppliesUpdate s s' u applied) : Moves uuid s s' := by
  intro p
  have hsame : s'.places uuid p = { s.places uuid p with profile := ((s'.profiles uuid).secrets p).value } := by
    simp [places, happlies.contents, happlies.legacy]
  rw [hsame, happlies.profiles]
  cases applied with
  | false => exact .stay
  | true =>
    rw [if_pos rfl]
    by_cases huuid : uuid = u.uuid
    · subst huuid
      rw [update_self, value_update]
      by_cases hp : p ∈ u.properties
      · obtain ⟨x, hkept, hvault⟩ := (h.updates u happlies.update rfl).2 p hp
        rw [if_pos hp]
        exact .update hkept hvault
      · rw [if_neg hp]
        exact .stay
    · rw [update_of_ne huuid]
      exact .stay

/-- A migration removes an item of the previous keyring. -/
theorem Safe.moves_clean (h : Safe uuid s) (hc : s.calls[n]? = some c) {p : Property} {value : Bytes}
    {path : Nat} {left : List (Property × Bytes × Nat)} (hphase : c.phase = .cleaning ((p, value, path) :: left))
    (hcontents : s'.contents = s.contents) (hprofiles : s'.profiles = s.profiles)
    (hlegacy : ∀ uuid' p', s'.legacy uuid' p' = s.legacy uuid' p' ∨ (uuid' = c.call.uuid ∧ p' = p)) :
    Moves uuid s s' := by
  intro p'
  have hsame : s'.places uuid p' = { s.places uuid p' with previous := s'.legacy uuid p' } := by
    simp [places, hcontents, hprofiles]
  rw [hsame]
  rcases hlegacy uuid p' with hold | ⟨huuid, rfl⟩
  · rw [hold]
    exact .stay
  · have hsuits := h.suits n c hc
    rw [hphase] at hsuits
    obtain ⟨other, hcall⟩ := hsuits
    rw [hcall] at huuid
    obtain rfl : uuid = other := huuid
    have hguarded := (h.migrations n c hc hcall).guarded (by simp [hphase]) (by rw [hphase]; rfl)
    have hrelies := hguarded.relies
    rw [hphase] at hrelies
    obtain ⟨copy, hcopy, hproperty⟩ := hrelies.2 _ mem_cons_self
    have hproperty : copy.property = p' := hproperty
    subst hproperty
    exact .clean (hguarded.kept copy hcopy) (hrelies.1 copy hcopy) _

theorem advances_hear {begun : Nat} (h : c.call.Suits c.phase) : Advances uuid s c (c.hear accepted begun) := by
  refine ⟨rfl, rfl, ?_, fun _ hsafe => ?_⟩
  · exact suits_heard accepted h
  · rcases hsafe with ⟨hcopies, hphase | hphase⟩ | hguarded
    · exact .inl ⟨hcopies, .inl (by simp [CallState.hear, hphase, Phase.heard])⟩
    · exact .inl ⟨hcopies, .inr (by simp [CallState.hear, hphase, Phase.heard])⟩
    · refine .inr ⟨hguarded.guarded, hguarded.kept, ?_⟩
      show Relies uuid s c.copies (c.phase.heard accepted)
      have hrelies := hguarded.relies
      unfold Phase.heard
      split
      · trivial
      · trivial
      · exact hrelies

/-! ## Runs -/

theorem Safe.suits_at (h : Safe uuid s) (hc : s.calls[n]? = some c) (hphase : c.phase = phase) :
    c.call.Suits phase :=
  hphase ▸ h.suits n c hc

theorem Safe.step {event : Event} (hsafe : Safe uuid s) (hcareful : Careful uuid s event)
    (h : process.step s event = .ok s') : Safe uuid s' := by
  cases effect_of_step h with
  | start call => exact hsafe.start hcareful
  | quiet hquiet =>
    refine hsafe.next (fun _ => moves_of_same hquiet.contents hquiet.profiles hquiet.legacy) (hquiet.migrations uuid)
      hquiet.generation.ge (fun n c' hc' => ?_) (fun _ r hr => .inl (hquiet.requests ▸ hr))
      fun u hu => .inl (hquiet.updates ▸ hu)
    obtain ⟨c, hc, rfl | hstretch⟩ := hquiet.calls n c' hc'
    · exact ⟨c', hc, .refl (hsafe.suits n c' hc)⟩
    · exact ⟨c, hc, hstretch.advances (hsafe.suits n c hc)⟩
  | @guard n c other hc hcall hphase =>
    by_cases hother : other = uuid
    · subst hother
      exact hsafe.guard hc hcall hcareful rfl rfl rfl (moves_of_same rfl rfl rfl) rfl rfl
    · have hadvances : Advances uuid s c { c with phase := .guarded } := by
        refine ⟨rfl, rfl, ⟨other, hcall⟩, fun hcall' => ?_⟩
        rw [hcall] at hcall'
        cases hcall'
        exact absurd rfl hother
      refine hsafe.next (fun _ => moves_of_same rfl rfl rfl) ?_ (Nat.le_succ _)
        (fun m d hd => hsafe.advances_set hc hadvances hd) (fun _ r hr => .inl hr) fun u hu => .inl hu
      dsimp only
      rw [update_of_ne (Ne.symm hother)]
  | @handOver n c writes hc hcall hphase hcurrent =>
    have hown : OwnWrites c.call writes := hsafe.suits_at hc hphase
    refine hsafe.next (fun _ => moves_of_same rfl rfl rfl) rfl (Nat.le_refl _)
      (fun m d hd => hsafe.advances_set hc (.of_phase (.writing none) (by simp [hphase]) (by rw [hphase]; rfl) hcall
        fun _ _ => trivial) hd) (fun hguarded r hr => ?_) fun u hu => .inl hu
    rcases mem_append.1 hr with hr | hr
    · exact .inl hr
    · obtain rfl := mem_singleton.1 hr
      exact .inr (hsafe.harmless_of_current hc hcall hcurrent hown hguarded)
  | @copy n c profile _ hc hphase =>
    have hcall : c.call = .migrate profile.uuid := hsafe.suits_at hc hphase
    refine hsafe.next (fun _ => moves_of_same rfl rfl rfl) rfl (Nat.le_refl _)
      (fun m d hd => hsafe.advances_set hc (.of_phase (.copying profile none) (by simp [hphase]) (by rw [hphase]; rfl) hcall
        fun _ _ => trivial) hd) (fun hguarded r hr => ?_) fun u hu => .inl hu
    rcases mem_append.1 hr with hr | hr
    · exact .inl hr
    · obtain rfl := mem_singleton.1 hr
      by_cases hprofile : profile.uuid = uuid
      · rw [hprofile] at hcall
        exact .inr (((hsafe.migrations n c hc hcall).guarded (by simp [hphase]) (by rw [hphase]; rfl)).harmless_copyWrites
          hprofile)
      · exact .inr fun m hm => harmless_of_isWrite (isWrite_copyWrites m hm) hprofile
  | @carryOut i accepted _ r hcarries =>
    refine hsafe.next (hsafe.moves_carryOut hcarries) (by rw [hcarries.migrations]) hcarries.generation.ge
      (fun n c' hc' => ?_) (fun _ r' hr' => .inl ?_) fun u hu => .inl (hcarries.updates ▸ hu)
    · obtain ⟨c, hc, rfl⟩ := hcarries.calls n c' hc'
      refine ⟨c, hc, ?_⟩
      split
      · exact advances_hear (hsafe.suits n c hc)
      · exact .refl (hsafe.suits n c hc)
    · rw [hcarries.requests] at hr'
      exact mem_of_mem_eraseIdx hr'
  | @send n c profile hc hphase =>
    have hcall : c.call = .migrate profile.uuid := hsafe.suits_at hc hphase
    have hall : c.copies.filter (· ∉ ([] : List Copied)) = c.copies := by simp
    refine hsafe.next (fun _ => moves_of_same rfl rfl rfl) rfl (Nat.le_refl _)
      (fun m d hd => hsafe.advances_set hc (.of_phase (.updating profile none) (by simp [hphase]) (by rw [hphase]; rfl) hcall
        fun _ hrelies => ?_) hd) (fun _ r hr => .inl hr) fun u hu => ?_
    · rw [hphase] at hrelies
      have hrelies : Secured uuid s (c.copies.filter (· ∉ ([] : List Copied))) := hrelies
      rw [hall] at hrelies
      exact hrelies
    · rcases mem_append.1 hu with hu | hu
      · exact .inl hu
      · obtain rfl := mem_singleton.1 hu
        refine .inr fun huuid => ?_
        have huuid : profile.uuid = uuid := huuid
        rw [huuid] at hcall
        have hguarded := (hsafe.migrations n c hc hcall).guarded (by simp [hphase]) (by rw [hphase]; rfl)
        have hrelies := hguarded.relies
        rw [hphase] at hrelies
        have hrelies : Secured uuid s (c.copies.filter (· ∉ ([] : List Copied))) := hrelies
        rw [hall] at hrelies
        refine ⟨hguarded.guarded, fun p hp => ?_⟩
        obtain ⟨copy, hcopy, rfl⟩ := mem_map.1 hp
        exact ⟨copy.value, hguarded.kept copy hcopy, hrelies copy hcopy⟩
  | @applyUpdate i accepted applied _ u happlies =>
    refine hsafe.next (fun _ => hsafe.moves_applyUpdate happlies) (by rw [happlies.migrations]) happlies.generation.ge
      (fun n c' hc' => ?_) (fun _ r hr => .inl (happlies.requests ▸ hr)) fun u hu => .inl (happlies.updates u hu)
    obtain ⟨c, hc, rfl | ⟨profile, hphase, rfl⟩⟩ := happlies.calls n c' hc'
    · exact ⟨c', hc, .refl (hsafe.suits n c' hc)⟩
    · have hcall : c.call = .migrate profile.uuid := hsafe.suits_at hc hphase
      refine ⟨c, hc, .of_phase (.updating profile (some applied)) (by simp [hphase]) (by rw [hphase]; rfl) hcall fun _ hrelies => ?_⟩
      rw [hphase] at hrelies
      exact hrelies
  | @clean n c p value path left hc hphase =>
    have hcall : ∃ other, c.call = .migrate other := hsafe.suits_at hc hphase
    refine hsafe.next (fun _ => hsafe.moves_clean hc hphase rfl rfl fun uuid' p' => ?_) rfl (Nat.le_refl _)
      (fun m d hd => hsafe.advances_set hc (.of_phase (.cleaning left) (by simp [hphase]) (by rw [hphase]; rfl) hcall
        fun _ hrelies => ?_) hd) (fun _ r hr => .inl hr) fun u hu => .inl hu
    · dsimp only
      by_cases huuid : uuid' = c.call.uuid
      · by_cases hp : p' = p
        · exact .inr ⟨huuid, hp⟩
        · subst huuid
          rw [update_self, update_of_ne hp]
          exact .inl rfl
      · rw [update_of_ne huuid]
        exact .inl rfl
    · rw [hphase] at hrelies
      exact ⟨hrelies.1, fun item hitem => hrelies.2 item (mem_cons_of_mem _ hitem)⟩

end

/-- Every credential that a migration of the connection has collected can be read, and after its success from the
vault. -/
def MigrationsKeep (uuid : String) (s : State) : Prop :=
  ∀ (n : Nat) c, s.calls[n]? = some c → c.call = .migrate uuid → ∀ copy ∈ c.copies,
    (s.places uuid copy.property).Readable copy.value ∧
      (c.phase = .finished true → (s.places uuid copy.property).vault = some copy.value)

/-- So it is at every moment of every careful run. -/
theorem run_readable (uuid : String) (contents : Contents) (profiles : String → ManagedProfile)
    (legacy : String → Property → List (Nat × Bytes)) (events : List Event)
    (hcareful : process.Meets (Careful uuid) (State.begin contents profiles legacy) events) :
    MigrationsKeep uuid (process.run (State.begin contents profiles legacy) events) := by
  have hsafe := Process.run_invariant (@Safe.begin uuid contents profiles legacy)
    (fun s event s' hs hevent hstep => Safe.step hs hevent hstep) hcareful
  intro n c hc hcall copy hcopy
  rcases hsafe.migrations n c hc hcall with ⟨hcopies, -⟩ | hguarded
  · rw [hcopies] at hcopy
    cases hcopy
  · refine ⟨(hguarded.kept copy hcopy).readable, fun hphase => ?_⟩
    have hrelies := hguarded.relies
    rw [hphase] at hrelies
    exact hrelies copy hcopy

namespace Reference

/-- A network whose password NetworkManager keeps. -/
def office : Profile where
  uuid := "81d0"
  label := "office"
  keyManagement := "wpa-psk"
  setting := .wifiSecurity
  credentials := [⟨.psk, 0, some (utf8 "battery staple"), true⟩]
  complete := rfl

def managed : State :=
  State.begin (fun _ => none)
    (fun _ => ⟨0, fun p => if p = .psk then ⟨0, some (utf8 "battery staple"), fun _ => rfl⟩ else ⟨0, none, fun _ => rfl⟩⟩)
    fun _ _ => []

/-- A migration behind its guard, without a failure. -/
def moved (n : Nat) : List Event :=
  [.readCredentials n office, .collect n false, .collect n false, .carryOut 0 true, .copied n, .verify n, .verify n,
    .applyUpdate 0 true, .updated n, .updated n, .verify n, .verify n, .clean n]

/-- A save waits for the lock while the profile is migrated. -/
def savedBefore : List Event :=
  [.start (.save office), .prepare 0, .start (.migrate "81d0"), .lock 1] ++ moved 1 ++ [.lock 0]

/-- The same, but NetworkManager asks for the save when the migration has its guard. -/
def savedDuring : List Event :=
  [.start (.migrate "81d0"), .lock 0, .start (.save office), .prepare 1] ++ moved 0 ++ [.lock 1, .carryOut 0 true]

end Reference

theorem run_readable_savedBefore :
    process.Meets (Careful "81d0") Reference.managed Reference.savedBefore ∧
      MigrationsKeep "81d0" (process.run Reference.managed Reference.savedBefore) := by
  have hmeets : process.Meets (Careful "81d0") Reference.managed Reference.savedBefore := by
    unfold Reference.savedBefore Reference.moved
    -- The migration finds no request, and the save had begun.
    refine .cons (fun _ _ => rfl) (.cons trivial (.cons (fun _ h => by cases h) (.cons (fun _ _ r hr => ?_) ?_)))
    · cases hr
    · iterate 13 refine .cons trivial ?_
      exact .cons (fun h => absurd h (by decide +kernel)) Process.meets_nil
  exact ⟨hmeets, run_readable _ _ _ _ _ hmeets⟩

/-- The calls of the agent for the connection are gets and saves from before the update of the profile. -/
def IssuedBefore (uuid : String) (version : Nat) (s : State) : Event → Prop
  | .start call => call.uuid = uuid → call.isAgents = true →
    (∀ path, call ≠ .delete path uuid) ∧ (s.profiles uuid).version = version
  | _ => True

/-- That is not enough. -/
theorem late_save_removes :
    ¬ ∀ (uuid : String) (contents : Contents) (profiles : String → ManagedProfile)
      (legacy : String → Property → List (Nat × Bytes)) (events : List Event),
      process.Meets (IssuedBefore uuid (profiles uuid).version) (State.begin contents profiles legacy) events →
        MigrationsKeep uuid (process.run (State.begin contents profiles legacy) events) := by
  intro h
  have hmeets : process.Meets (IssuedBefore "81d0" 0) Reference.managed Reference.savedDuring := by
    unfold Reference.savedDuring Reference.moved
    refine .cons (fun _ h => by cases h) (.cons trivial (.cons (fun _ _ => ⟨fun _ h => (by cases h), rfl⟩) ?_))
    iterate 16 refine .cons trivial ?_
    exact Process.meets_nil
  have hkeep : MigrationsKeep "81d0" (process.run Reference.managed Reference.savedDuring) := h _ _ _ _ _ hmeets
  have hcopies : ((process.run Reference.managed Reference.savedDuring).calls.map fun c => (c.call.isAgents, c.copies)) =
      [(false, [⟨.psk, utf8 "battery staple", []⟩]), (true, [])] := by decide +kernel
  have hprofile : ((process.run Reference.managed Reference.savedDuring).places "81d0" .psk).profile = none := by
    decide +kernel
  have hvault : ((process.run Reference.managed Reference.savedDuring).places "81d0" .psk).vault = none := by
    decide +kernel
  have hprevious : ((process.run Reference.managed Reference.savedDuring).places "81d0" .psk).previous = [] := by
    decide +kernel
  have hcall : ((process.run Reference.managed Reference.savedDuring).calls.map fun c => c.call.uuid) =
      ["81d0", "81d0"] := by decide +kernel
  generalize process.run Reference.managed Reference.savedDuring = s at hkeep hcopies hprofile hvault hprevious hcall
  obtain ⟨c, rest, hs, hc, -⟩ := map_eq_cons_iff.1 hcopies
  have huuid : c.call.uuid = "81d0" := by
    rw [hs] at hcall
    exact (cons.inj hcall).1
  obtain ⟨hmigrates, hcopied⟩ := Prod.mk.inj hc
  have hmigrate : c.call = .migrate "81d0" := by
    cases h : c.call with
    | migrate other =>
      rw [h] at huuid
      rw [← huuid]
      rfl
    | _ =>
      rw [h] at hmigrates
      cases hmigrates
  -- The save has removed the only copy.
  obtain ⟨hreadable, -⟩ := hkeep 0 c (by rw [hs]; rfl) hmigrate ⟨.psk, utf8 "battery staple", []⟩ (by simp [hcopied])
  rcases hreadable with h | h | ⟨path, h⟩
  · rw [hprofile] at h
    cases h
  · rw [hvault] at h
    cases h
  · rw [hprevious] at h
    cases h

end FactorSeal.Wifi
