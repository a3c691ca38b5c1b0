import FactorSeal.Store.Records
import FactorSeal.Vault.Projection

/-! # What the vault shows of one document

`Shows v view` says what can be read of the document of a kind and partition: there is no such document and the view is
empty, or it loads and shows the view. A read of what has no deadline leaves the vault as it is (`Shows.get`), and a
batch of writes has the effects of its operations on the view (`Shows.mutate`). -/

namespace FactorSeal

open Wire Except Std ExtMap DocumentOperation SecretDocument

variable {env : VaultEnv} {device : Device} {v v' : PlainVault} {scope : DocumentKind} {partition : Bytes}
  {view : DocumentView}

namespace PlainVault

def Shows (env : VaultEnv) (device : Device) (scope : DocumentKind) (partition : Bytes) (v : PlainVault)
    (view : DocumentView) : Prop :=
  (v.documents[env.documentId device scope partition]? = none ∧ view = fun _ => none) ∨
    ∃ d, v.held env device scope partition = some d ∧ d.Shown ∧ d.view = view

theorem Shows.of_absent (h : v.documents[env.documentId device scope partition]? = none) :
    Shows env device scope partition v fun _ => none := .inl ⟨h, rfl⟩

/-- Only the document itself matters. -/
theorem Shows.congr (h : Shows env device scope partition v view)
    (hsame : v'.documents[env.documentId device scope partition]? =
      v.documents[env.documentId device scope partition]?) :
    Shows env device scope partition v' view := by
  unfold Shows held at h ⊢
  rw [hsame]
  exact h

theorem held_of_absent (h : v.documents[env.documentId device scope partition]? = none) :
    v.held env device scope partition = none := by
  simp [held, h, PlainDocument.loaded]

/-- What is stored under a key is what the view shows there. -/
theorem Shows.view_eq (h : Shows env device scope partition v view) (key : String) :
    view key = (v.records env device scope partition key).head?.map SecretRecord.visible := by
  rcases h with ⟨hnone, rfl⟩ | ⟨d, hd, -, rfl⟩
  · simp [records, held_of_absent hnone]
  · simp [records, hd, view]

/-- The document a transaction loads. -/
theorem Shows.loaded (h : Shows env device scope partition v view) {loaded : Option (SecretDocument × PlainDocument)}
    (hloaded : PlainDocument.loaded env device scope (some partition)
      v.documents[env.documentId device scope partition]? = .ok loaded) :
    (loaded = none ∧ view = fun _ => none) ∨ ∃ d q, loaded = some (d, q) ∧ d.Shown ∧ d.view = view := by
  rcases h with ⟨hnone, hview⟩ | ⟨d, hd, hshown, hview⟩
  · rw [hnone] at hloaded
    cases hloaded
    exact .inl ⟨rfl, hview⟩
  · rcases loaded_eq_ok hloaded with ⟨hnone, -⟩ | ⟨q, e, hq, rfl, hscope, hload⟩
    · rw [held_of_absent hnone] at hd
      cases hd
    · rw [held_of_load hq hscope hload] at hd
      cases hd
      exact .inr ⟨d, q, rfl, hshown, hview⟩

/-! ## Reads -/

end PlainVault

/-- What a read of a document without conflicts finds, if that has no deadline. -/
theorem SecretDocument.getWithDeadline_of_shown {d : SecretDocument} (hshown : d.Shown)
    {address : SecretAddress} {now : UInt64}
    (hlive : ∀ r, d.view (address.storageKey env.sha256) = some r → r.evictAt = none)
    {read : SecretRead} {deadline : Option UInt64} (h : d.getWithDeadline env address now = .ok (read, deadline)) :
    (d.view (address.storageKey env.sha256) = none ∧ read = .missing) ∨
      ∃ r, d.view (address.storageKey env.sha256) = some r ∧ read = .value r.value := by
  simp only [getWithDeadline, bind_eq_ok] at h
  obtain ⟨⟨⟩, -, h⟩ := h
  split at h
  next hnil =>
    cases h
    exact .inl ⟨by simp [view, hnil], rfl⟩
  next first rest hrecords =>
    -- all records of the key are the one that is shown
    obtain ⟨r, hr⟩ : ∃ r, visibleRecord (first :: rest) = .ok r := by
      cases hentries : d.entries[address.storageKey env.sha256]? with
      | none => simp [records, hentries] at hrecords
      | some l =>
        have hl : l = first :: rest := by simpa [records, hentries] using hrecords
        exact hl ▸ hshown _ _ hentries
    have hall : ∀ s ∈ first :: rest, s = first := fun s hs =>
      ((visibleRecord_eq_ok hr s).1 hs).trans ((visibleRecord_eq_ok hr first).1 List.mem_cons_self).symm
    have hview : d.view (address.storageKey env.sha256) = some first.visible := by simp [view, hrecords]
    have hdeadline : first.evictAt = none := hlive _ hview
    obtain ⟨⟨⟩, -, h⟩ := bind_eq_ok.1 h
    have hfresh : (first :: rest).any (expiredAt now) = false := by
      rw [List.any_eq_false]
      intro s hs
      simp [hall s hs, expiredAt, hdeadline]
    have hagree : rest.any (·.value ≠ first.value) = false := by
      rw [List.any_eq_false]
      intro s hs
      simp [hall s (List.mem_cons_of_mem _ hs)]
    rw [hfresh, hagree] at h
    cases h
    exact .inr ⟨first.visible, hview, rfl⟩

namespace PlainVault

theorem Shows.get (hshows : Shows env device scope partition v view) {address : SecretAddress} {now : UInt64}
    (hlive : ∀ r, view (address.storageKey env.sha256) = some r → r.evictAt = none) {a : Option StoredSecret}
    (h : (ops env device).get env device v scope partition address now = .ok (a, v')) :
    v' = v ∧ a.map StoredSecret.value = (view (address.storageKey env.sha256)).map VisibleRecord.value := by
  simp only [StoreOps.get, ops, transact, bind_eq_ok] at h
  obtain ⟨loaded, hloaded, outcome, houtcome, h⟩ := h
  have hread : outcome.mutation = none ∧ outcome.draws = v.draws ∧
      outcome.answer.map StoredSecret.value = (view (address.storageKey env.sha256)).map VisibleRecord.value := by
    rcases hshows.loaded hloaded with ⟨rfl, rfl⟩ | ⟨d, q, rfl, hshown, rfl⟩
    · cases houtcome
      exact ⟨rfl, rfl, rfl⟩
    · simp only [Option.map_some, getBody, bind_eq_ok] at houtcome
      obtain ⟨⟨read, deadline⟩, hget, houtcome⟩ := houtcome
      rcases getWithDeadline_of_shown hshown hlive hget with ⟨hview, rfl⟩ | ⟨r, hview, rfl⟩
      · cases houtcome
        exact ⟨rfl, rfl, by rw [hview]; rfl⟩
      · cases houtcome
        exact ⟨rfl, rfl, by rw [hview]; rfl⟩
  obtain ⟨hquiet, hdraws, hvalue⟩ := hread
  rw [finish, hquiet, hdraws] at h
  cases h
  exact ⟨rfl, hvalue⟩

/-! ## Writes -/

end PlainVault

namespace SecretDocument

variable {d d' : SecretDocument}

theorem shown_new (actor : Bytes) (kind : DocumentKind) (partition : Bytes) : (new actor kind partition).Shown :=
  fun key l hl => by simp [new] at hl

theorem Persists.shown {made : DocumentMutation} (h : Persists env made d) : d.Shown := by
  intro key l hl
  obtain ⟨r, rfl, -⟩ := h.single key l hl
  exact ⟨r, rfl⟩

/-- Operations of which none changed anything leave the document. -/
theorem applyAll_unchanged {context : MutationContext} {operations : List DocumentOperation} {draw draw' : Nat}
    (h : operations.foldlM (applyOne env context) (d, draw, false) = .ok (d', draw', false)) : d' = d := by
  -- a change is never forgotten
  have hkept : ∀ {operations : List DocumentOperation} {s s' : SecretDocument × Nat × Bool},
      operations.foldlM (applyOne env context) s = .ok s' → s.2.2 = true → s'.2.2 = true := by
    intro operations s s' hrun hs
    refine foldlM_invariant (P := fun s : SecretDocument × Nat × Bool => s.2.2 = true)
      (fun t operation t' _ ht hstep => ?_) hs hrun
    cases operation with
    | put address value evictAt =>
      obtain ⟨r, -, hstep⟩ := bind_eq_ok.1 hstep
      cases hstep
      rfl
    | delete address =>
      obtain ⟨r, -, hstep⟩ := bind_eq_ok.1 hstep
      cases hstep
      simp [ht]
  induction operations generalizing d draw with
  | nil =>
    cases h
    rfl
  | cons operation rest ih =>
    rw [List.foldlM_cons, bind_eq_ok] at h
    obtain ⟨⟨d₁, draw₁, changed⟩, hone, h⟩ := h
    cases changed with
    | true => cases hkept h rfl
    | false =>
      obtain rfl := applyOne_unchanged hone
      exact ih h

end SecretDocument

namespace PlainVault

/-- A batch on the document that was loaded or begun. -/
theorem shows_of_apply {d d' : SecretDocument} {operations : List DocumentOperation} {context : MutationContext}
    {draws draws' : Nat} {current : Option PlainDocument} {made : Option DocumentMutation} {a : Unit}
    (hkind : d.kind = scope) (hactor : d.actor = device.actorId) (hpartition : d.partition = partition)
    (happly : d.apply env draws operations context = .ok (made, d', draws'))
    (hsame : made = none → Shows env device scope partition v d.view)
    (h : v.finish env (env.documentId device scope partition) scope current context ⟨(), made, draws'⟩ = .ok (a, v')) :
    Shows env device scope partition v' (operations.foldl (effect env) d.view) := by
  obtain ⟨q, changed, hrun, hend⟩ := apply_eq_ok.1 happly
  have hview := view_applyAll hrun
  rcases hend with ⟨rfl, finished, hfinish, rfl⟩ | ⟨rfl, rfl, rfl⟩
  · obtain ⟨-, ⟨hnone, -⟩ | ⟨mutation, p, hmutation, hscope, hsnapshot, hdocuments⟩⟩ := finish_eq_ok h
    · cases hnone
    cases hmutation
    have hpersists := persists_finishMutation hfinish
    have hframe : Derives env (fun _ => True) d d' :=
      ((derives_applyAll hrun).mono fun _ _ => trivial).trans
        (derives_project (finishMutation_eq_ok hfinish).choose_spec.1)
    have hloads := hpersists.loads
    rw [hframe.kind, hframe.actor, hframe.partition, hkind, hactor, hpartition, ← hsnapshot] at hloads
    have hheld : v'.held env device scope partition = some d' :=
      held_of_load (by rw [hdocuments, getElem?_insert_iff, if_pos rfl]) hscope hloads
    exact .inr ⟨d', hheld, hpersists.shown, (view_finishMutation hfinish).trans hview⟩
  · -- nothing changed, so nothing was committed
    obtain ⟨-, ⟨-, hdocuments⟩ | ⟨mutation, p, hmutation, -⟩⟩ := finish_eq_ok h
    · have hunchanged := applyAll_unchanged hrun
      dsimp only at hview
      rw [← hview, hunchanged]
      exact (hsame rfl).congr (by rw [hdocuments])
    · cases hmutation

theorem Shows.mutate (hshows : Shows env device scope partition v view) {operations : List DocumentOperation}
    {provenance : Provenance} {now : UInt64} {a : Unit}
    (h : (ops env device).mutate env device v scope partition operations provenance now = .ok (a, v')) :
    Shows env device scope partition v' (operations.foldl (effect env) view) := by
  simp only [StoreOps.mutate, ops, transact, bind_eq_ok] at h
  obtain ⟨loaded, hloaded, outcome, houtcome, h⟩ := h
  rcases loaded_eq_ok hloaded with ⟨hnone, rfl⟩ | ⟨q, d, hq, rfl, hscope, hload⟩
  · rcases hshows with ⟨-, rfl⟩ | ⟨d, hd, -⟩
    swap
    · rw [held_of_absent hnone] at hd
      cases hd
    unfold mutateBody mutateTarget at houtcome
    by_cases hput : operations.any isPut = true
    · simp only [Option.map_none, hput, if_true, bind_eq_ok] at houtcome
      obtain ⟨⟨made, d', draws'⟩, happly, houtcome⟩ := houtcome
      cases houtcome
      have hempty : (SecretDocument.new device.actorId scope partition).view = fun _ => none := by
        funext key
        simp [SecretDocument.view, SecretDocument.records, SecretDocument.new]
      rw [← hempty]
      exact shows_of_apply rfl rfl rfl happly (fun _ => hempty ▸ .of_absent hnone) h
    · -- deletions from a document that is not there
      simp only [Option.map_none, hput, if_false, Bool.false_eq_true] at houtcome
      cases houtcome
      obtain ⟨-, ⟨-, hdocuments⟩ | ⟨mutation, p, hmutation, -⟩⟩ := finish_eq_ok h
      · have hdeletes : ∀ (operations : List DocumentOperation), operations.any isPut = false →
            operations.foldl (effect env) (fun _ => none) = fun _ => none := by
          intro operations
          induction operations with
          | nil => exact fun _ => rfl
          | cons operation rest ih =>
            intro hany
            rw [List.any_cons, Bool.or_eq_false_iff] at hany
            cases operation with
            | put address value evictAt => cases hany.1
            | delete address =>
              have hnothing : (delete address).effect env (fun _ => none) = fun _ => none := by
                funext key
                simp [effect, Function.update_apply]
              rw [List.foldl_cons, hnothing]
              exact ih hany.2
        rw [hdeletes operations (by simpa using hput)]
        exact .of_absent (by rw [hdocuments, hnone])
      · cases hmutation
  · obtain ⟨hkind, hactor, hpartition, -, -⟩ := SecretDocument.load_eq_ok hload
    rcases hshows with ⟨hnone, -⟩ | ⟨e, hd, hshown, rfl⟩
    · rw [hq] at hnone
      cases hnone
    have hheld := held_of_load hq hscope hload
    rw [hheld] at hd
    cases hd
    simp only [Option.map_some, mutateBody, mutateTarget, bind_eq_ok] at houtcome
    obtain ⟨⟨made, d', draws'⟩, happly, houtcome⟩ := houtcome
    cases houtcome
    exact shows_of_apply hkind hactor (hpartition partition rfl) happly (fun _ => .inr ⟨d, hheld, hshown, rfl⟩) h

end PlainVault

end FactorSeal
