import FactorSeal.Keyring.Requests
import FactorSeal.Service.Reference
import Mathlib.Data.Vector.Defs

/-! # The keyring under concurrent calls

`Executes` runs calls and imports one at a time on a keyring nobody else uses. In every interleaving the log of the system
is such an execution: its steps, in their order, lead from the keyring there was to the one the vault holds, and give the
answers the calls got (`KeyringSystem.run_linear`). A call that succeeded is in the log once, and a call that saw a
conflict or gave up is not in it.

A call's read and its batch are two requests. What carries the argument over from one to the other is the text of the
index that the call read: as long as the batch finds this text, the items are those the call worked with. -/

namespace FactorSeal

open List hiding Vector
open Wire Except Std

variable {more : List (Origin × KeyringStep)} {call : KeyringCall} {k₀ : Keyring} {origin : Origin}

/-! ## One at a time -/

/-- The step leads from one keyring to another, with the answer it gave. -/
def KeyringStep.Performs (k k' : Keyring) : KeyringStep → Prop
  | .call c now fresh answer => k.perform c now fresh = .ok (answer, k')
  | .importItem item value replaceExisting status => k.importItem item value replaceExisting = (status, k')

inductive Executes : Keyring → List KeyringStep → Keyring → Prop
  | nil (k : Keyring) : Executes k [] k
  | cons {k k₁ k' : Keyring} {step : KeyringStep} {rest : List KeyringStep} (hstep : step.Performs k k₁)
    (hrest : Executes k₁ rest k') : Executes k (step :: rest) k'

theorem Executes.concat {k k₁ k₂ : Keyring} {steps : List KeyringStep} {step : KeyringStep} (h : Executes k steps k₁)
    (hstep : step.Performs k₁ k₂) : Executes k (steps ++ [step]) k₂ := by
  induction h with
  | nil k => exact .cons hstep (.nil k₂)
  | cons hfirst _ ih => exact .cons hfirst (ih hstep)

/-! ## Accounts -/

/-- What the log has of one call. -/
def entriesOf (origin : Origin) (log : List (Origin × KeyringStep)) : List (Origin × KeyringStep) :=
  log.filter fun e => e.1 = origin

/-- A call that succeeded was done once, with the answer it got; one that had a conflict, gave up or found no item was not
done; of one that failed otherwise it is not known. -/
def Settled (n : Nat) (call : KeyringCall) (found : List (Origin × KeyringStep)) :
    Except KeyringFailure KeyringAnswer → Prop
  | .ok answer => ∃ now fresh, found = [(.call n, .call call now fresh answer)]
  | .error (.noItem _) | .error .changedRepeatedly | .error (.failed .conflict) => found = []
  | .error (.failed _) => found.length ≤ 1

/-- An import that succeeded was done once, with its status; one that failed was not done. -/
def ImportCall.Settled (env : ServiceEnv) (n : Nat) (found : List (Origin × KeyringStep)) (c : ImportCall) : Prop :=
  match c.result with
  | .ok status => ∃ item value, decodePortable env c.value c.entry.address = .ok (item, value) ∧
      found = [(.importItem n, .importItem item value c.replaceExisting status)]
  | .error _ => found = []

/-- What is known of a call in each of its states. In a pass, the edit is what the call makes of the items it read. -/
def CallState.Accounted (env : VaultEnv) (n : Nat) (call : KeyringCall) (found : List (Origin × KeyringStep)) :
    CallState → Prop
  | .reading _ => found = []
  | .writing _ a => found = [] ∧ ∃ items, Lists env a.expected items ∧ a.index = ⟨1, items⟩ ∧
      call.edit a.now a.fresh items = .ok (a.edit, a.answer) ∧ a.edit.Fits env items
  | .finished result => Settled n call found result

theorem entriesOf_append (origin : Origin) (log more : List (Origin × KeyringStep)) :
    entriesOf origin (log ++ more) = entriesOf origin log ++ entriesOf origin more := filter_append ..

theorem entriesOf_other {other : Origin} (h : ∀ e ∈ more, e.1 = other)
    (hne : other ≠ origin) : entriesOf origin more = [] := by
  refine List.filter_eq_nil_iff.2 fun e he => ?_
  simp only [decide_eq_true_eq]
  intro heq
  exact hne ((h e he).symm.trans heq)

theorem entriesOf_self (h : ∀ e ∈ more, e.1 = origin) : entriesOf origin more = more :=
  List.filter_eq_self.2 fun e he => decide_eq_true (h e he)

/-- An error that is not an answer of the vault may hide that the call was done. -/
theorem settled_lost {n : Nat} {found : List (Origin × KeyringStep)} (loss : Loss)
    (h : found.length ≤ 1) : Settled n call found (.error (.failed loss.error)) := by
  have hnot := loss.notConflict
  cases herror : loss.error <;> first | exact absurd herror hnot | exact h

theorem settled_failed {n : Nat} (e : VaultError) : Settled n call [] (.error (.failed e)) := by
  cases e <;> first | rfl | exact Nat.zero_le 1

namespace KeyringSystem

variable {n passes : Nat} {vault : PlainVault} {now : UInt64} {fresh : Vector UInt8 16} {request : KeyringRequest}
  {old state : CallState}

section

variable (env : ServiceEnv) (device : Device)

/-- What is assumed of the hash and of fresh ids, at the step that depends on it: a fresh id is not the id of an item, a
batch does not find another index of the digest it expects, and an imported item does not share its storage key. -/
def Apart (s : KeyringSystem) : KeyringEvent → Prop
  | .read _ _ _ fresh =>
    s.vault.records env.toVaultEnv device .linuxSecretService secretServiceNamespace
        (itemKey env.toVaultEnv (randomId fresh)) = [] ∧
      itemKey env.toVaultEnv (randomId fresh) ≠ indexKey env.toVaultEnv
  | .write n _ _ => ∀ call passes a, s.calls[n]? = some (call, .writing passes a) → SameText env.sha256 a.expected
      ((s.vault.records env.toVaultEnv device .linuxSecretService secretServiceNamespace
        (indexKey env.toVaultEnv)).head?.map SecretRecord.value)
  | .importItem entry _ _ _ _ _ _ =>
    (∀ r ∈ s.vault.records env.toVaultEnv device .linuxSecretService secretServiceNamespace
        (entry.address.storageKey env.sha256), r.address = entry.address) ∧
      (entry.address.storageKey env.sha256 = indexKey env.toVaultEnv → entry.address = indexAddress)
  | .elsewhere vault =>
    vault.documents[env.toVaultEnv.documentId device .linuxSecretService secretServiceNamespace]? =
      s.vault.documents[env.toVaultEnv.documentId device .linuxSecretService secretServiceNamespace]?
  | .start _ | .refuse _ _ => True

/-- Before any call. -/
def begin (vault : PlainVault) : KeyringSystem := ⟨vault, [], [], []⟩

/-- The vault holds the keyring that the log leads to. -/
def Stored (k₀ : Keyring) (vault : PlainVault) (log : List (Origin × KeyringStep)) : Prop :=
  ∃ view k, vault.ShowsKeyring env device view ∧ Stores env.toVaultEnv k view ∧ Executes k₀ (log.map Prod.snd) k

structure Inv (k₀ : Keyring) (s : KeyringSystem) : Prop where
  stored : Stored env device k₀ s.vault s.log
  calls : ∀ n call (state : CallState), s.calls[n]? = some (call, state) →
    state.Accounted env.toVaultEnv n call (entriesOf (.call n) s.log)
  imports : ∀ n (c : ImportCall), s.imports[n]? = some c → c.Settled env n (entriesOf (.importItem n) s.log)
  laterCalls : ∀ n, s.calls.length ≤ n → entriesOf (.call n) s.log = []
  laterImports : ∀ n, s.imports.length ≤ n → entriesOf (.importItem n) s.log = []

end

variable {env : ServiceEnv} {device : Device} {s s' : KeyringSystem}

/-! ## Steps -/

/-- One call goes on, and what it does is recorded as its own. -/
theorem Inv.setCall (h : Inv env device k₀ s) (hcall : s.calls[n]? = some (call, old))
    (hmore : ∀ e ∈ more, e.1 = .call n) (hstored : Stored env device k₀ vault (s.log ++ more))
    (hstate : state.Accounted env.toVaultEnv n call (entriesOf (.call n) s.log ++ more)) :
    Inv env device k₀ { s with vault, calls := s.calls.set n (call, state), log := s.log ++ more } := by
  obtain ⟨hlt, -⟩ := List.getElem?_eq_some_iff.1 hcall
  refine ⟨hstored, fun m other otherState hother => ?_, fun m c hc => ?_, fun m hm => ?_, fun m hm => ?_⟩
  · rw [getElem?_set] at hother
    by_cases hmn : n = m
    · subst hmn
      rw [if_pos rfl, if_pos hlt] at hother
      cases hother
      rw [entriesOf_append, entriesOf_self hmore]
      exact hstate
    · rw [if_neg hmn] at hother
      rw [entriesOf_append, entriesOf_other hmore (fun heq => hmn (Origin.call.inj heq)), append_nil]
      exact h.calls m other otherState hother
  · rw [entriesOf_append, entriesOf_other hmore Origin.noConfusion, append_nil]
    exact h.imports m c hc
  · rw [length_set] at hm
    rw [entriesOf_append, entriesOf_other hmore (fun heq => ?_), append_nil]
    · exact h.laterCalls m hm
    · have := Origin.call.inj heq
      omega
  · rw [entriesOf_append, entriesOf_other hmore Origin.noConfusion, append_nil]
    exact h.laterImports m hm

/-- The same without a record. -/
theorem Inv.setState (h : Inv env device k₀ s) (hcall : s.calls[n]? = some (call, old))
    (hstate : state.Accounted env.toVaultEnv n call (entriesOf (.call n) s.log)) :
    Inv env device k₀ { s with calls := s.calls.set n (call, state) } := by
  have hset : Inv env device k₀ { s with calls := s.calls.set n (call, state), log := s.log ++ [] } :=
    h.setCall hcall (fun e he => by cases he) (by rw [append_nil]; exact h.stored)
      (by rw [append_nil]; exact hstate)
  rwa [append_nil] at hset

theorem Inv.start (h : Inv env device k₀ s) (call : KeyringCall) :
    Inv env device k₀ { s with calls := s.calls ++ [(call, .reading 0)] } := by
  refine ⟨h.stored, fun m other state hother => ?_, h.imports, fun m hm => ?_, h.laterImports⟩
  · rw [getElem?_append] at hother
    split at hother
    · exact h.calls m other state hother
    next hge =>
      have hempty := h.laterCalls m (by omega)
      rw [getElem?_singleton] at hother
      split at hother
      · cases hother
        exact hempty
      · cases hother
  · refine h.laterCalls m ?_
    simp only [length_append] at hm
    omega

/-- What a call goes on with after its read. -/
theorem accounted_afterRead
    {result : VaultResult (VaultResponseBody × Option UInt64)} {text : Option Bytes} {items : List IndexItem}
    (hlists : Lists env.toVaultEnv text items) (hanswer : ∀ answer, result = .ok answer → answer.1 = .secret text)
    (hfresh : itemKey env.toVaultEnv (randomId fresh) ∉ keyringKeys env.toVaultEnv items) :
    (call.afterRead env passes now fresh result).Accounted env.toVaultEnv n call [] := by
  cases result with
  | error e => exact settled_failed e
  | ok answer =>
    obtain ⟨body, deadline⟩ := answer
    obtain rfl : body = .secret text := hanswer _ rfl
    simp only [KeyringCall.afterRead]
    cases hdecode : Index.decode env.indexJson text with
    | error e => exact settled_failed e
    | ok index =>
      obtain rfl := hlists.decode hdecode
      dsimp only
      cases hedit : call.edit now fresh items with
      | error failure =>
        cases failure with
        | noItem id => rfl
        | changedRepeatedly => rfl
        | failed e => exact settled_failed e
      | ok worked => exact ⟨rfl, items, hlists, rfl, hedit, KeyringCall.edit_fits hedit hfresh⟩

theorem Inv.read (h : Inv env device k₀ s) (hapart : s.Apart env device (.read n request now fresh))
    (hstep : s.read env device n request now fresh = .ok s') : Inv env device k₀ s' := by
  unfold KeyringSystem.read at hstep
  split at hstep
  next call passes hcall =>
    obtain ⟨view, k, hshows, hstores, hexecutes⟩ := h.stored
    obtain ⟨result, hrun, hanswer⟩ := KeyringRequest.run_get hshows hstores request
    rw [hrun] at hstep
    cases hstep
    have hfresh : itemKey env.toVaultEnv (randomId fresh) ∉ keyringKeys env.toVaultEnv k.items := by
      intro hmem
      rcases List.mem_cons.1 hmem with hkey | hmem
      · exact hapart.2 hkey
      · obtain ⟨item, hitem, hkey⟩ := List.mem_map.1 hmem
        obtain ⟨e, he, rfl⟩ := List.mem_map.1 hitem
        have hview := hstores.item e he
        rw [hkey, hshows.view_eq, hapart.1] at hview
        cases hview
    have hbefore : entriesOf (.call n) s.log = [] := h.calls n call _ hcall
    refine h.setState hcall ?_
    rw [hbefore]
    exact accounted_afterRead hstores.lists hanswer hfresh
  next => cases hstep

/-- What a call goes on with after a batch that was refused. -/
theorem accounted_refused {a : Attempt} (e : VaultError) :
    (a.afterWrite passes (.error e)).Accounted env.toVaultEnv n call [] := by
  by_cases he : e = .conflict
  · subst he
    simp only [Attempt.afterWrite]
    split
    · rfl
    · rfl
  · have hfailed : a.afterWrite passes (.error e) = .finished (.error (.failed e)) := by
      cases e <;> first | rfl | exact absurd rfl he
    rw [hfailed]
    exact settled_failed e

theorem Inv.write (h : Inv env device k₀ s) {lost : Option Loss}
    (hapart : s.Apart env device (.write n request lost)) (hstep : s.write env device n request lost = .ok s') :
    Inv env device k₀ s' := by
  unfold KeyringSystem.write at hstep
  split at hstep
  next call passes a hcall =>
    obtain ⟨view, k, hshows, hstores, hexecutes⟩ := h.stored
    obtain ⟨hbefore, items, hlists, hindex, hedit, hfits⟩ := h.calls n call _ hcall
    have hsame : SameText env.sha256 a.expected ((view (indexKey env.toVaultEnv)).map VisibleRecord.value) := by
      rw [hshows.view_eq, Option.map_map]
      exact hapart call passes a hcall
    rcases KeyringRequest.run_mutate hshows hstores request hlists hindex hfits hsame with
      ⟨e, hrun⟩ | ⟨deadline, v', view', hrun, hitems, hshows', hstores'⟩
    · -- the batch was refused
      rw [hrun] at hstep
      cases hstep
      refine h.setCall hcall (fun e he => by cases he) ⟨view, k, hshows, hstores, ?_⟩ ?_
      · rw [recorded, append_nil]
        exact hexecutes
      · rw [hbefore]
        cases lost with
        | none => exact accounted_refused e
        | some loss => exact settled_lost loss (Nat.zero_le 1)
    · -- the batch was done, on the items that the call had read
      rw [hrun] at hstep
      cases hstep
      have hperforms : (KeyringStep.call call a.now a.fresh a.answer).Performs k (k.edit a.edit) := by
        show (call.edit a.now a.fresh k.items).map _ = _
        rw [hitems, hedit]
        rfl
      refine h.setCall hcall (fun e he => ?_) ⟨view', _, hshows', hstores', ?_⟩ ?_
      · obtain rfl := List.mem_singleton.1 he
        rfl
      · rw [map_append]
        exact hexecutes.concat hperforms
      · rw [hbefore]
        cases lost with
        | none => exact ⟨a.now, a.fresh, rfl⟩
        | some loss => exact settled_lost loss (Nat.le_refl 1)
  next => cases hstep

theorem Inv.refuse (h : Inv env device k₀ s) {loss : Loss} (hstep : s.refuse n loss = .ok s') :
    Inv env device k₀ s' := by
  unfold KeyringSystem.refuse at hstep
  split at hstep
  next call passes hcall =>
    cases hstep
    have hbefore : entriesOf (.call n) s.log = [] := h.calls n call _ hcall
    refine h.setState hcall (settled_lost loss ?_)
    rw [hbefore]
    exact Nat.zero_le 1
  next call passes a hcall =>
    cases hstep
    have hbefore : entriesOf (.call n) s.log = [] := (h.calls n call _ hcall).1
    refine h.setState hcall (settled_lost loss ?_)
    rw [hbefore]
    exact Nat.zero_le 1
  next => cases hstep

/-- An import is recorded as its own. -/
theorem Inv.addImport (h : Inv env device k₀ s) {c : ImportCall}
    (hmore : ∀ e ∈ more, e.1 = .importItem s.imports.length)
    (hstored : Stored env device k₀ vault (s.log ++ more)) (hsettled : c.Settled env s.imports.length more) :
    Inv env device k₀ { s with vault, imports := s.imports ++ [c], log := s.log ++ more } := by
  refine ⟨hstored, fun m call state hcall => ?_, fun m other hother => ?_, fun m hm => ?_, fun m hm => ?_⟩
  · rw [entriesOf_append, entriesOf_other hmore Origin.noConfusion, append_nil]
    exact h.calls m call state hcall
  · rw [getElem?_append] at hother
    split at hother
    next hlt =>
      rw [entriesOf_append, entriesOf_other hmore (fun heq => ?_), append_nil]
      · exact h.imports m other hother
      · have := Origin.importItem.inj heq
        omega
    next hge =>
      rw [getElem?_singleton] at hother
      split at hother
      · obtain rfl : m = s.imports.length := by omega
        cases hother
        rw [entriesOf_append, entriesOf_self hmore, h.laterImports _ (Nat.le_refl _), nil_append]
        exact hsettled
      · cases hother
  · rw [entriesOf_append, entriesOf_other hmore Origin.noConfusion, append_nil]
    exact h.laterCalls m hm
  · simp only [length_append, length_singleton] at hm
    rw [entriesOf_append, entriesOf_other hmore (fun heq => ?_), append_nil]
    · exact h.laterImports m (by omega)
    · have := Origin.importItem.inj heq
      omega

theorem Inv.importItem (h : Inv env device k₀ s) {entry : VaultEntryMetadata} {value : Bytes}
    {evictAt : Option UInt64} {replaceExisting : Bool} {requestId : RequestId} {provenance : Provenance}
    (hapart : s.Apart env device (.importItem entry value evictAt replaceExisting requestId provenance now)) :
    Inv env device k₀ (s.importItem env device entry value evictAt replaceExisting requestId provenance now) := by
  obtain ⟨view, k, hshows, hstores, hexecutes⟩ := h.stored
  have hshared : ∀ r, view (entry.address.storageKey env.sha256) = some r → r.address = entry.address := by
    intro r hr
    rw [hshows.view_eq] at hr
    obtain ⟨record, hrecord, rfl⟩ := Option.map_eq_some_iff.1 hr
    exact hapart.1 record (mem_of_head? hrecord)
  unfold KeyringSystem.importItem
  rcases run_importItem hshows hstores value evictAt replaceExisting requestId provenance now hshared hapart.2 with
    ⟨e, hrun⟩ | ⟨item, portable, v', view', hdecode, hrun, hshows', hstores'⟩
  · rw [hrun]
    refine h.addImport (fun e he => by cases he) ⟨view, k, hshows, hstores, ?_⟩ rfl
    rw [recordedImport, append_nil]
    exact hexecutes
  · rw [hrun]
    have hrecorded : ∀ status, recordedImport env s.imports.length entry value replaceExisting (.ok status) =
        [(.importItem s.imports.length, .importItem item portable replaceExisting status)] := by
      intro status
      rw [recordedImport, hdecode]
    dsimp only
    rw [hrecorded]
    refine h.addImport (fun e he => ?_) ⟨view', _, hshows', hstores', ?_⟩ ⟨item, portable, hdecode, rfl⟩
    · obtain rfl := List.mem_singleton.1 he
      rfl
    · rw [map_append]
      exact hexecutes.concat rfl

theorem Inv.step (h : Inv env device k₀ s) {event : KeyringEvent} (hapart : s.Apart env device event)
    (hstep : (process env device).step s event = .ok s') : Inv env device k₀ s' := by
  cases event with
  | start call =>
    cases hstep
    exact h.start call
  | read n request now fresh => exact h.read hapart hstep
  | write n request lost => exact h.write hapart hstep
  | refuse n loss => exact h.refuse hstep
  | importItem entry value evictAt replaceExisting requestId provenance now =>
    cases hstep
    exact h.importItem hapart
  | elsewhere vault =>
    cases hstep
    obtain ⟨view, k, hshows, hstores, hexecutes⟩ := h.stored
    exact ⟨⟨view, k, hshows.congr hapart, hstores, hexecutes⟩, h.calls, h.imports, h.laterCalls, h.laterImports⟩

/-! ## Runs -/

/-- One call on a vault without a keyring, with nothing in between. -/
theorem meets_single (habsent : vault.documents[env.toVaultEnv.documentId device .linuxSecretService
      secretServiceNamespace]? = none) (hkey : itemKey env.toVaultEnv (randomId fresh) ≠ indexKey env.toVaultEnv) :
    (process env device).Meets (Apart env device) (begin vault)
      [.start call, .read 0 request now fresh, .write 0 request none] := by
  have hrecords : ∀ key, vault.records env.toVaultEnv device .linuxSecretService secretServiceNamespace key = [] := by
    intro key
    simp [PlainVault.records, PlainVault.held_of_absent habsent]
  have hread : ((process env device).next ⟨vault, [(call, .reading 0)], [], []⟩ (.read 0 request now fresh)).vault =
      vault := by
    obtain ⟨result, hrun, -⟩ := KeyringRequest.run_get (.of_absent habsent) stores_nil request
    simp only [Process.next, process, KeyringSystem.read, getElem?_cons_zero, hrun]
  refine .cons trivial (.cons ⟨hrecords _, hkey⟩ (.cons (fun call' passes a _ => ?_) Process.meets_nil))
  intro t _ t' ht'
  have hnone : (vault.records env.toVaultEnv device .linuxSecretService secretServiceNamespace
      (indexKey env.toVaultEnv)).head?.map SecretRecord.value = some t' := hread ▸ ht'
  rw [hrecords] at hnone
  cases hnone

end KeyringSystem

namespace Reference

/-- Grants to read and write the keyring. -/
def keyringGrants : List DocumentOperation :=
  let target := (GrantTarget.wholeNamespace .linuxSecretService secretServiceNamespace).digest referenceService.sha256
  [GrantPermission.get, .put].map fun permission =>
    .put (grantEntry (editor.fingerprint referenceService.sha256) target permission)
      (referenceService.grantJson.encode
        (newGrant (editor.fingerprint referenceService.sha256) target permission none false)) none

/-- A vault with these grants and no keyring. -/
def grantedVault : PlainVault :=
  ((VaultStore.mutate .authorization grantDocumentNamespace keyringGrants .redacted 1).run
    (plainServer referenceService thisDevice) ⟨∅, 0⟩).2

def keyringRequest : KeyringRequest := ⟨editor, fun _ => (5, 5), .redacted, none⟩

/-- A call creates an item. -/
def creation : List KeyringEvent :=
  [.start (.createOrReplace "wifi" ∅ [1] "text/plain" false), .read 0 keyringRequest 5 (Vector.replicate 16 3),
    .write 0 keyringRequest none]

end Reference

namespace KeyringSystem

variable {env : ServiceEnv} {device : Device}

/-- In every state of every run the vault holds a keyring with distinct ids and a value for exactly these, the log is a
sequential execution that leads to it, and every call and import that is over is settled in the log. -/
theorem run_linear {vault : PlainVault} {view : DocumentView} (hshows : vault.ShowsKeyring env device view)
    (hstores : Stores env.toVaultEnv k₀ view) {events : List KeyringEvent}
    (hapart : (process env device).Meets (Apart env device) (begin vault) events) :
    let s := (process env device).run (begin vault) events
    (∃ view k, s.vault.ShowsKeyring env device view ∧ Stores env.toVaultEnv k view ∧
        (k.items.map IndexItem.id).Nodup ∧
        (∀ id, (∃ r, view (itemKey env.toVaultEnv id) = some r ∧ r.address = itemAddress id) ↔
          id ∈ k.items.map IndexItem.id) ∧
        Executes k₀ (s.log.map Prod.snd) k) ∧
      (∀ n call result, s.calls[n]? = some (call, .finished result) →
        Settled n call (entriesOf (.call n) s.log) result) ∧
      ∀ n (c : ImportCall), s.imports[n]? = some c → c.Settled env n (entriesOf (.importItem n) s.log) := by
  have hbegin : Inv env device k₀ (begin vault) := by
    refine ⟨⟨view, k₀, hshows, hstores, .nil k₀⟩, fun n call state hcall => ?_, fun n c hc => ?_, fun _ _ => rfl,
      fun _ _ => rfl⟩
    · cases hcall
    · cases hc
  have hinv : Inv env device k₀ ((process env device).run (begin vault) events) :=
    Process.run_invariant hbegin (fun t event t' ht hK hstep => ht.step hK hstep) hapart
  obtain ⟨view', k, hshows', hstores', hexecutes⟩ := hinv.stored
  exact ⟨⟨view', k, hshows', hstores', hstores'.distinct, hstores'.indexed, hexecutes⟩,
    fun n call result hcall => hinv.calls n call _ hcall, hinv.imports⟩

theorem run_linear_creation :
    ((process referenceService Reference.thisDevice).run (begin Reference.grantedVault) Reference.creation).log.length = 1 ∧
      ∃ view k, ((process referenceService Reference.thisDevice).run (begin Reference.grantedVault)
          Reference.creation).vault.ShowsKeyring referenceService Reference.thisDevice view ∧
        Stores referenceService.toVaultEnv k view ∧
        Executes [] (((process referenceService Reference.thisDevice).run (begin Reference.grantedVault)
          Reference.creation).log.map Prod.snd) k := by
  have hnone : Reference.grantedVault.documents[referenceService.toVaultEnv.documentId Reference.thisDevice
      .linuxSecretService secretServiceNamespace]?.isNone = true := by decide +kernel
  have habsent := Option.isNone_iff_eq_none.1 hnone
  have hkey : itemKey referenceService.toVaultEnv (randomId (Vector.replicate 16 3)) ≠
      indexKey referenceService.toVaultEnv := by decide +kernel
  have hmeets : (process referenceService Reference.thisDevice).Meets (Apart referenceService Reference.thisDevice)
      (begin Reference.grantedVault) Reference.creation := meets_single habsent hkey
  have hrun := run_linear (.of_absent habsent) stores_nil hmeets
  obtain ⟨view, k, h⟩ := hrun.1
  refine ⟨by decide +kernel, view, k, h.1, h.2.1, h.2.2.2.2⟩

end KeyringSystem

end FactorSeal
