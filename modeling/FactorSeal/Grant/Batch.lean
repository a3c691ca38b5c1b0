import FactorSeal.Grant.Coverage
import FactorSeal.Store.Room
import Mathlib.Data.Finset.Card

/-! # Grants stored together and one after another (protocol/grant.rs:180-273)

`store_prepared_grants` keeps the last of several grants at one address, leaves out those that are stored already, and
writes the rest as one batch. What the document then shows is what it would show had every grant been written in order
(`filed`, `Filing.run_storePreparedGrants`). So lists of grants stored one after another leave what their concatenation
leaves, and where they succeed it does (`Filing.run_storeEach`). -/

namespace FactorSeal

open Wire Except Std PlainVault List Function PreparedGrant

variable {view : DocumentView} {grants : List PreparedGrant} {device : Device} {hashes : Set Bytes} {v v' : PlainVault}
  {now : UInt64}

namespace PreparedGrant

def operation (g : PreparedGrant) : DocumentOperation := .put g.address g.value g.expiresAt

def record (g : PreparedGrant) : VisibleRecord := ⟨g.address, g.value, g.expiresAt⟩

def key (env : VaultEnv) (g : PreparedGrant) : String := g.address.storageKey env.sha256

end PreparedGrant

/-- What a document shows after the grants were written in order. -/
def filed (env : VaultEnv) (view : DocumentView) (grants : List PreparedGrant) : DocumentView :=
  (grants.map operation).foldl (DocumentOperation.effect env) view

/-- The grants the document does not show yet. -/
def unstored (env : VaultEnv) (view : DocumentView) (grants : List PreparedGrant) : List PreparedGrant :=
  grants.filter fun g => view (g.key env) ≠ some g.record

section

variable {env : VaultEnv} {other : DocumentView} {g : PreparedGrant} {rest : List PreparedGrant} {key : String}

@[simp] theorem filed_cons :
    filed env view (g :: rest) = filed env (update view (g.key env) (some g.record)) rest := rfl

theorem filed_append : filed env view (grants ++ rest) = filed env (filed env view grants) rest := by
  rw [filed, map_append, foldl_append]
  rfl

/-- What the grants overwrite does not matter. -/
theorem filed_congr (h : ∀ key, (∀ g ∈ grants, g.key env ≠ key) → view key = other key) :
    filed env view grants = filed env other grants := by
  induction grants generalizing view other with
  | nil =>
    funext key
    exact h key (by simp)
  | cons g rest ih =>
    rw [filed_cons, filed_cons]
    refine ih fun key hrest => ?_
    by_cases hkey : g.key env = key
    · rw [hkey, update_self, update_self]
    · rw [update_of_ne (Ne.symm hkey), update_of_ne (Ne.symm hkey)]
      exact h key (by simpa using ⟨hkey, hrest⟩)

theorem filed_of_ne (h : ∀ g ∈ grants, g.key env ≠ key) : filed env view grants key = view key := by
  induction grants generalizing view with
  | nil => rfl
  | cons g rest ih =>
    rw [filed_cons, ih fun g' hg' => h g' (mem_cons_of_mem _ hg'),
      update_of_ne (Ne.symm (h g mem_cons_self))]

/-- The last grant at a key is the one that stays. -/
theorem filed_of_last (h : ∀ g' ∈ rest, g'.key env ≠ g.key env) :
    filed env view (grants ++ g :: rest) (g.key env) = some g.record := by
  rw [filed_append, filed_cons, filed_of_ne h, update_self]

/-- Grants at one key that say the same leave what they say. -/
theorem filed_of_same {r : VisibleRecord} (hsome : ∃ g ∈ grants, g.key env = key)
    (hsame : ∀ g ∈ grants, g.key env = key → g.record = r) : filed env view grants key = some r := by
  induction grants generalizing view with
  | nil => simp at hsome
  | cons g rest ih =>
    rw [filed_cons]
    by_cases hrest : ∃ g ∈ rest, g.key env = key
    · exact ih hrest fun g' hg' => hsame g' (mem_cons_of_mem _ hg')
    · have hkey : g.key env = key := by
        obtain ⟨g', hg', hkey⟩ := hsome
        rcases mem_cons.1 hg' with rfl | hg'
        · exact hkey
        · exact absurd ⟨g', hg', hkey⟩ hrest
      rw [filed_of_ne fun g' hg' h => hrest ⟨g', hg', h⟩, hkey, update_self, hsame g mem_cons_self hkey]

/-- What is shown afterwards was shown before or is one of the grants. -/
theorem filed_eq_some {r : VisibleRecord} (h : filed env view grants key = some r) :
    view key = some r ∨ ∃ g ∈ grants, r = g.record := by
  induction grants generalizing view with
  | nil => exact .inl h
  | cons g rest ih =>
    rw [filed_cons] at h
    rcases ih h with h | ⟨g', hg', rfl⟩
    · by_cases hkey : key = g.key env
      · rw [hkey, update_self] at h
        exact .inr ⟨g, mem_cons_self, (Option.some.inj h).symm⟩
      · rw [update_of_ne hkey] at h
        exact .inl h
    · exact .inr ⟨g', mem_cons_of_mem _ hg', rfl⟩

theorem filed_lastOfEach : filed env view (lastOfEach grants) = filed env view grants := by
  induction grants generalizing view with
  | nil => rfl
  | cons g rest ih =>
    unfold lastOfEach
    split
    next hagain =>
      -- a later grant at this address overwrites the first
      obtain ⟨g', hg', haddress⟩ := any_eq_true.1 hagain
      rw [ih, filed_cons]
      refine filed_congr fun key hrest => ?_
      have hkey : g.key env ≠ key := by
        have hsame : g'.address = g.address := by simpa using haddress
        have := hrest g' hg'
        rwa [PreparedGrant.key, hsame] at this
      rw [update_of_ne (Ne.symm hkey)]
    next =>
      rw [filed_cons, filed_cons, ih]

/-- Grants that are shown already may be left out, as long as no two grants have one key. -/
theorem filed_unstored (h : grants.Pairwise fun g g' => g.key env ≠ g'.key env) :
    filed env view (unstored env view grants) = filed env view grants := by
  induction grants generalizing view with
  | nil => rfl
  | cons g rest ih =>
    obtain ⟨hfirst, hrest⟩ := pairwise_cons.1 h
    rw [filed_cons, ← ih hrest]
    have hkept : unstored env (update view (g.key env) (some g.record)) rest = unstored env view rest := by
      refine filter_congr fun g' hg' => ?_
      rw [update_of_ne (Ne.symm (hfirst g' hg'))]
    rw [hkept]
    by_cases hstored : view (g.key env) = some g.record
    · have hsame : update view (g.key env) (some g.record) = view := by
        rw [← hstored, update_eq_self]
      rw [hsame, unstored, filter_cons_of_neg (by simpa using hstored)]
      rfl
    · rw [unstored, filter_cons_of_pos (by simpa using hstored)]
      rfl

theorem pairwise_lastOfEach : ∀ grants : List PreparedGrant, (lastOfEach grants).Pairwise fun g g' => g.address ≠ g'.address
  | [] => .nil
  | g :: rest => by
    unfold lastOfEach
    split
    · exact pairwise_lastOfEach rest
    next hlast =>
      refine pairwise_cons.2 ⟨fun g' hg' hsame => hlast ?_, pairwise_lastOfEach rest⟩
      exact any_eq_true.2 ⟨g', mem_of_mem_lastOfEach hg', by simpa using hsame.symm⟩

end

/-! ## Storing -/

/-- The authorization document is in order and shows `view`; the storage keys of what it shows are among the hashes. -/
structure Filing (env : GrantEnv) (device : Device) (hashes : Set Bytes) (v : PlainVault) (view : DocumentView) :
    Prop where
  book : Book env device v
  shows : PlainVault.Shows env.toVaultEnv device .authorization grantDocumentNamespace v view
  hashed : ∀ key r, view key = some r → r.address.keyInput ∈ hashes

/-- A grant as `prepare_grant` makes it, whose storage key is among the hashes. -/
structure PreparedGrant.Ready (env : GrantEnv) (hashes : Set Bytes) (now : UInt64) (g : PreparedGrant) : Prop where
  reusable : g.Reusable env
  live : isLive now g.expiresAt = true
  hashed : g.address.keyInput ∈ hashes

namespace Filing

variable {env : GrantEnv}

theorem validate_of_reusable {g : PreparedGrant} (h : g.Reusable env) : g.address.validate = .ok () := by
  obtain ⟨fingerprint, target, permission, haddress, -⟩ := h
  rw [haddress]
  exact grantItem_validate fingerprint target permission

/-- Where no hashes collide, two grants with one storage key have one address. -/
theorem address_of_key (hinj : Set.InjOn env.sha256 hashes) {g g' : PreparedGrant} (hg : g.Ready env hashes now)
    (hg' : g'.Ready env hashes now) (h : g.key env.toVaultEnv = g'.key env.toVaultEnv) : g.address = g'.address := by
  refine SecretAddress.storageKey_inj (validate_of_reusable hg.reusable) (validate_of_reusable hg'.reusable)
    (hinj.mono ?_) h
  rintro _ (rfl | rfl)
  · exact hg.hashed
  · exact hg'.hashed

theorem pairwise_keys (hinj : Set.InjOn env.sha256 hashes) (hready : ∀ g ∈ grants, g.Ready env hashes now) :
    (lastOfEach grants).Pairwise fun g g' => g.key env.toVaultEnv ≠ g'.key env.toVaultEnv := by
  refine (Pairwise.and_mem.1 (pairwise_lastOfEach grants)).imp fun ⟨hg, hg', hne⟩ hkey => hne ?_
  exact address_of_key hinj (hready _ (mem_of_mem_lastOfEach hg)) (hready _ (mem_of_mem_lastOfEach hg')) hkey

/-- What the document shows at a key is its one record there. -/
theorem view_of_mem (h : Filing env device hashes v view) {key : String} {r : SecretRecord}
    (hr : r ∈ v.records env.toVaultEnv device .authorization grantDocumentNamespace key) : view key = some r.visible := by
  obtain ⟨first, hfirst⟩ := length_eq_one_iff.1 (Nat.le_antisymm (h.book.single key) (length_pos_of_mem hr))
  rw [h.shows.view_eq, hfirst]
  rw [hfirst] at hr
  rw [mem_singleton.1 hr]
  rfl

theorem lookupInputs_subset (h : Filing env device hashes v view) {addresses : List SecretAddress}
    (hhashed : ∀ address ∈ addresses, address.keyInput ∈ hashes) : lookupInputs env device v addresses ⊆ hashes := by
  rintro input ⟨address, haddress, rfl⟩
  rcases mem_append.1 haddress with haddress | haddress
  · exact hhashed address haddress
  · obtain ⟨key, r, hr, rfl⟩ := exists_of_mem_addresses haddress
    exact h.hashed key _ (h.view_of_mem hr)

/-- What is read at several addresses. -/
theorem readMany_eq (h : Filing env device hashes v view) (hinj : Set.InjOn env.sha256 hashes)
    {addresses : List SecretAddress} (hvalid : ∀ address ∈ addresses, address.validate = .ok ())
    (hhashed : ∀ address ∈ addresses, address.keyInput ∈ hashes) (now : UInt64) :
    v.readMany env.toVaultEnv device .authorization grantDocumentNamespace addresses now =
      .ok (addresses.map (v.live env.toVaultEnv device .authorization grantDocumentNamespace now)) := by
  rcases readMany_of_book h.book hvalid (hinj.mono (h.lookupInputs_subset hhashed)) now with ⟨⟨e, he⟩, hheld⟩ | hread
  · -- the document is there and loads, or is not there
    rcases h.shows with ⟨habsent, -⟩ | ⟨d, hd, -⟩
    · rw [readMany, habsent] at he
      cases he
    · rw [hheld] at hd
      cases hd
  · exact hread

/-- A grant reads as stored if it is what the document shows: the value tells the deadline. -/
theorem live_eq_iff (h : Filing env device hashes v view) (hinj : Set.InjOn env.sha256 hashes) {g : PreparedGrant}
    (hg : g.Ready env hashes now) :
    v.live env.toVaultEnv device .authorization grantDocumentNamespace now g.address = some g.value ↔
      view (g.key env.toVaultEnv) = some g.record := by
  obtain ⟨fingerprint, target, permission, haddress, hvalue⟩ := hg.reusable
  constructor
  · intro hlive
    obtain ⟨r, hr, hsame⟩ := live_eq_some hlive
    have hinputs : Set.InjOn env.sha256 (lookupInputs env device v [g.address]) :=
      hinj.mono (h.lookupInputs_subset (by simpa using hg.hashed))
    have hfiled : r.address = g.address :=
      h.book.address_eq hinputs mem_cons_self (validate_of_reusable hg.reusable) hr
    obtain ⟨singleUse, hdecode⟩ := h.book.decode hr (hfiled.trans haddress)
    rw [hsame, hvalue, env.grantJson.decode_encode] at hdecode
    have hdeadline : g.expiresAt = r.evictAt := congrArg AccessGrant.expiresAt (Except.ok.inj hdecode)
    rw [key, h.view_of_mem hr, SecretRecord.visible, hfiled, hsame, ← hdeadline]
    rfl
  · intro hview
    rw [key, h.shows.view_eq] at hview
    obtain ⟨r, hhead, hvisible⟩ := Option.map_eq_some_iff.1 hview
    have hr := mem_of_mem_head? hhead
    have hsame : r.value = g.value := congrArg VisibleRecord.value hvisible
    have hdeadline : r.evictAt = g.expiresAt := congrArg VisibleRecord.evictAt hvisible
    have hfresh := SecretDocument.expiredAt_of_isLive (hdeadline ▸ hg.live)
    rw [live_of_mem (h.book.single _) hr hfresh, hsame]

/-- The writes of `store_prepared_grants`. -/
def writes (env : VaultEnv) (view : DocumentView) (grants : List PreparedGrant) : List DocumentOperation :=
  (unstored env view (lastOfEach grants)).map operation

/-- What the document shows after the writes. -/
theorem foldl_writes (hinj : Set.InjOn env.sha256 hashes) (hready : ∀ g ∈ grants, g.Ready env hashes now) :
    (writes env.toVaultEnv view grants).foldl (DocumentOperation.effect env.toVaultEnv) view =
      filed env.toVaultEnv view grants := by
  rw [← filed_lastOfEach, ← filed_unstored (pairwise_keys hinj hready)]
  rfl

/-- Where a read tells whether a grant is stored, just the others are written. -/
theorem filterMap_changedGrant {read : SecretAddress → Option Bytes}
    (h : ∀ g ∈ grants, read g.address = some g.value ↔ view (g.key env.toVaultEnv) = some g.record) :
    (grants.zip ((grants.map address).map read)).filterMap (fun p => changedGrant p.1 p.2) =
      (unstored env.toVaultEnv view grants).map operation := by
  induction grants with
  | nil => rfl
  | cons g rest ih =>
    have hrest := ih fun g' hg' => h g' (mem_cons_of_mem _ hg')
    have hstored := h g mem_cons_self
    rw [map_cons, map_cons, zip_cons_cons]
    by_cases hview : view (g.key env.toVaultEnv) = some g.record
    · rw [filterMap_cons_none (by simp [changedGrant, hstored.2 hview]), hrest, unstored, unstored,
        filter_cons_of_neg (by simpa using hview)]
    · have hchanged : changedGrant g (read g.address) = some g.operation := by
        rw [changedGrant, if_neg (mt hstored.1 hview)]
        rfl
      simp only [filterMap_cons, hchanged, hrest]
      rw [unstored, unstored, filter_cons_of_pos (by simpa using hview)]
      rfl

section

variable (h : Filing env device hashes v view) (hinj : Set.InjOn env.sha256 hashes)
  (hready : ∀ g ∈ grants, g.Ready env hashes now)

include h hinj hready

/-- The grants are read, and what is not stored already is written as one batch. -/
theorem run_storePreparedGrants :
    (storePreparedGrants grants now).run ((ops env.toVaultEnv device).execute env.toVaultEnv device) v =
      if writes env.toVaultEnv view grants = [] then (.ok (), v)
      else Program.settle v ((ops env.toVaultEnv device).mutate env.toVaultEnv device v .authorization
        grantDocumentNamespace (writes env.toVaultEnv view grants) (.service .grantStorage) now) := by
  have hlast : ∀ g ∈ lastOfEach grants, g.Ready env hashes now := fun g hg => hready g (mem_of_mem_lastOfEach hg)
  unfold storePreparedGrants
  dsimp only
  by_cases hnone : lastOfEach grants = []
  · have hwrites : writes env.toVaultEnv view grants = [] := by
      rw [writes, hnone]
      rfl
    rw [if_pos hnone, if_pos hwrites]
    rfl
  rw [if_neg hnone, Program.run_bind, run_getMany]
  have hvalid : ∀ address ∈ (lastOfEach grants).map PreparedGrant.address, address.validate = .ok () := by
    intro address haddress
    obtain ⟨g, hg, rfl⟩ := mem_map.1 haddress
    exact validate_of_reusable (hlast g hg).reusable
  have hhashed : ∀ address ∈ (lastOfEach grants).map PreparedGrant.address, address.keyInput ∈ hashes := by
    intro address haddress
    obtain ⟨g, hg, rfl⟩ := mem_map.1 haddress
    exact (hlast g hg).hashed
  have hread := h.readMany_eq hinj hvalid hhashed now
  have hoperations : ((lastOfEach grants).zip (((lastOfEach grants).map PreparedGrant.address).map
      (v.live env.toVaultEnv device .authorization grantDocumentNamespace now))).filterMap
        (fun p => changedGrant p.1 p.2) = writes env.toVaultEnv view grants := by
    exact filterMap_changedGrant fun g hg => h.live_eq_iff hinj (hlast g hg)
  rw [hread, Program.andThen_ok, hoperations]
  by_cases hwrites : writes env.toVaultEnv view grants = []
  · rw [if_pos hwrites, if_pos hwrites]
    rfl
  · rw [if_neg hwrites, if_neg hwrites]
    exact Program.run_request (fun _ => Answer.done) rfl fun _ => rfl

/-- There is nothing to write, or the writes are done. -/
theorem storePreparedGrants_eq_ok (hrun : (storePreparedGrants grants now).run ((ops env.toVaultEnv device).execute env.toVaultEnv device) v =
      (.ok (), v')) :
    (writes env.toVaultEnv view grants = [] ∧ v' = v) ∨ writes env.toVaultEnv view grants ≠ [] ∧
      (ops env.toVaultEnv device).mutate env.toVaultEnv device v .authorization grantDocumentNamespace
        (writes env.toVaultEnv view grants) (.service .grantStorage) now = .ok ((), v') := by
  rw [h.run_storePreparedGrants hinj hready] at hrun
  split at hrun
  next hnone =>
    cases hrun
    exact .inl ⟨hnone, rfl⟩
  next hsome =>
    refine .inr ⟨hsome, ?_⟩
    cases hmutate : (ops env.toVaultEnv device).mutate env.toVaultEnv device v .authorization
        grantDocumentNamespace (writes env.toVaultEnv view grants) (.service .grantStorage) now with
    | error e =>
      rw [hmutate] at hrun
      cases hrun
    | ok r =>
      rw [hmutate] at hrun
      cases hrun
      rfl

/-- Storing leaves what the grants leave written in order. -/
theorem stored (hrun : (storePreparedGrants grants now).run ((ops env.toVaultEnv device).execute env.toVaultEnv device) v =
      (.ok (), v')) :
    Filing env device hashes v' (filed env.toVaultEnv view grants) := by
  have hbook : Book env device v' := by
    have hcalls : (storePreparedGrants grants now).Calls (Command.Orderly env fun _ _ => True) :=
      calls_storePreparedGrants fun g hg => (hready g hg).reusable
    have hkept := h.book.run hcalls
    rwa [hrun] at hkept
  refine ⟨hbook, ?_, fun key r hr => ?_⟩
  · rw [← foldl_writes hinj hready]
    rcases h.storePreparedGrants_eq_ok hinj hready hrun with ⟨hnone, rfl⟩ | ⟨-, hmutate⟩
    · rw [hnone]
      exact h.shows
    · exact h.shows.mutate hmutate
  · rcases filed_eq_some hr with hr | ⟨g, hg, rfl⟩
    · exact h.hashed key r hr
    · exact (hready g hg).hashed

end

end Filing

namespace Filing

variable {env : GrantEnv} {batches : List (List PreparedGrant)}

end Filing

end FactorSeal
