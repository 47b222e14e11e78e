import Aardbin.Custody.Invariant

/-!
# Custody of files: record ids are used once, and uploads can be counted

An id of `Uuid::new_v4` waits in one request until `create_record` uses it.  After that it is
spent: no request will create a record under it again.  The uploads that a request holds are those
that its history says it has renamed and neither inserted nor removed.
-/

namespace Aardbin

open Effect

/-- Some request is about to create a record under this id. -/
def Pending (gs : ℕ → Option Held) (id : String) : Prop :=
  ∃ i g, gs i = some g ∧ g.newId = some id

/-- The id was handed out and nobody will create a record under it. -/
def Spent (w : Store) (gs : ℕ → Option Held) (id : String) : Prop :=
  id ∈ w.issued ∧ ¬ Pending gs id

structure Ledger (w : Store) (gs : ℕ → Option Held) : Prop where
  records : ∀ id ∈ w.db.recordIds, Spent w gs id
  seen : Each (fun _ g => ∀ id ∈ g.seen, Spent w gs id) gs
  pending : Each (fun _ g => ∀ id, g.newId = some id → id ∈ w.issued) gs
  exclusive : Exclusive (fun g : Held => g.newId.toList) gs

/-! ## Pending ids -/

theorem Pending.of_update {gs : ℕ → Option Held} {i : ℕ} {g' : Held} {id : String}
    (h : Pending (Function.update gs i (some g')) id) :
    g'.newId = some id ∨ ∃ j g, j ≠ i ∧ gs j = some g ∧ g.newId = some id := by
  rcases h with ⟨j, g, hj, hid⟩
  by_cases hji : j = i
  · subst hji
    simp only [Function.update_self, Option.some.injEq] at hj
    exact .inl (hj ▸ hid)
  · rw [Function.update_of_ne hji] at hj
    exact .inr ⟨j, g, hji, hj, hid⟩

theorem Pending.of_drop {gs : ℕ → Option Held} {i : ℕ} {id : String}
    (h : Pending (Function.update gs i none) id) : Pending gs id := by
  rcases h with ⟨j, g, hj, hid⟩
  have hji : j ≠ i := by
    rintro rfl
    simp at hj
  rw [Function.update_of_ne hji] at hj
  exact ⟨j, g, hj, hid⟩

theorem newId_answer {e : Env} {g : Held} {w w' : Store} {op : Call} {r : Reply op}
    (h : w.answer e op = some (r, w')) {id : String} (hid : (g.upd op r).newId = some id) :
    g.newId = some id ∨ (id ∉ w.issued ∧ id ∈ w'.issued) := by
  cases op with
  | newV4 =>
      rcases Store.answer_newV4 h with ⟨hfresh, rfl⟩
      -- The only call that hands out an id for a record; the store has never issued it.
      simp only [Held.upd, Option.some.injEq] at hid
      subst hid
      exact .inr ⟨hfresh.issued, List.mem_cons_self⟩
  | file c =>
      rw [Held.upd, Held.newId_updFile] at hid
      exact .inl hid
  | db c =>
      rcases g.newId_updDb c r with hsame | hnone
      · exact .inl (hsame ▸ hid)
      · rw [Held.upd, hnone] at hid
        cases hid
  | _ => exact .inl hid

/-- A record that a request has written is an old one, or the one whose id it was waiting with. -/
theorem seen_answer {e : Env} {g : Held} {w w' : Store} {op : Call} {r : Reply op}
    (hpre : g.pre op) (h : w.answer e op = some (r, w')) {id : String}
    (hid : id ∈ (g.upd op r).seen) :
    id ∈ g.seen ∨ id ∈ w.db.recordIds ∨ (g.newId = some id ∧ (g.upd op r).newId = none) := by
  cases op with
  | db c =>
      cases c with
      | createRecord id' blob now =>
          cases r with
          | error err => exact .inl hid
          | ok _ =>
              rcases List.mem_cons.1 hid with rfl | hid
              · exact .inr (.inr ⟨hpre.1, rfl⟩)
              · exact .inl hid
      | updateRecord id' blob now =>
          rcases r with err | _ | _
          · exact .inl hid
          · exact .inl hid
          · rcases List.mem_cons.1 hid with rfl | hid
            · -- An update that answers `true` has found the row.
              rcases Store.answer_db_ok h with ⟨db, -, hexec, -⟩
              simp only [Db.exec, Db.updateRecord, Except.ok.injEq, Prod.mk.injEq,
                decide_eq_true_eq] at hexec
              exact .inr (.inl hexec.1)
            · exact .inl hid
      | _ =>
          rw [Held.upd, Held.seen_updDb _ _ (by simp) (by simp)] at hid
          exact .inl hid
  | file c =>
      rw [Held.upd, Held.seen_updFile] at hid
      exact .inl hid
  | _ => exact .inl hid

theorem Spent.start {w : Store} {gs : ℕ → Option Held} {id : String} (h : Spent w gs id) (i : ℕ)
    (req : Request) : Spent w (Function.update gs i (some (Held.born req))) id := by
  refine ⟨h.1, fun hp => ?_⟩
  rcases hp.of_update with hnew | ⟨j, g, -, hj, hid⟩
  · cases hnew
  · exact h.2 ⟨j, g, hj, hid⟩

theorem Spent.drop {w : Store} {gs : ℕ → Option Held} {id : String} (h : Spent w gs id) (i : ℕ) :
    Spent w (Function.update gs i none) id :=
  ⟨h.1, fun hp => h.2 hp.of_drop⟩

/-- Once spent, always spent. -/
theorem Spent.ask {w w' : Store} {gs : ℕ → Option Held} {i : ℕ} {g : Held} {id : String}
    (h : Spent w gs id) (hi : gs i = some g) {e : Env} {op : Call} {r : Reply op}
    (hans : w.answer e op = some (r, w')) :
    Spent w' (Function.update gs i (some (g.upd op r))) id := by
  refine ⟨Store.issued_answer hans id h.1, fun hp => ?_⟩
  rcases hp.of_update with hnew | ⟨j, g', -, hj, hid'⟩
  · rcases newId_answer hans hnew with hold | ⟨hfresh, -⟩
    · exact h.2 ⟨i, g, hi, hold⟩
    · exact hfresh h.1
  · exact h.2 ⟨j, g', hj, hid'⟩

/-- A spent record that is gone does not come back. -/
theorem Spent.not_recreated {w w' : Store} {gs : ℕ → Option Held} {i : ℕ} {g : Held} {id : String}
    (h : Spent w gs id) (hi : gs i = some g) {e : Env} {op : Call} {r : Reply op} (hpre : g.pre op)
    (hans : w.answer e op = some (r, w')) (hgone : id ∉ w.db.recordIds) :
    id ∉ w'.db.recordIds := by
  intro hmem
  rcases Store.recordIds_answer hans id hmem with hold | ⟨blob, now, rfl⟩
  · exact hgone hold
  · exact h.2 ⟨i, g, hi, hpre.1⟩

namespace Ledger

variable {w w' : Store} {gs : ℕ → Option Held} {i : ℕ} {g : Held}

theorem empty : Ledger .empty fun _ => none :=
  ⟨by simp [Store.empty], .idle, .idle, .idle⟩

theorem start (h : Ledger w gs) (req : Request) :
    Ledger w (Function.update gs i (some (Held.born req))) := by
  refine ⟨fun id hid => (h.records id hid).start i req, h.seen.set ?_ ?_, h.pending.set ?_ ?_,
    h.exclusive.set ?_⟩
  · intro id hid
    cases hid
  · exact fun j g _ _ hg id hid => (hg id hid).start i req
  · intro id hid
    cases hid
  · exact fun _ _ _ _ hg => hg
  · intro j g _ _ id hid
    cases hid

theorem drop (h : Ledger w gs) : Ledger w (Function.update gs i none) :=
  ⟨fun id hid => (h.records id hid).drop i, h.seen.drop fun _ _ _ _ hg id hid => (hg id hid).drop i,
    h.pending.drop fun _ _ _ _ hg => hg, h.exclusive.drop⟩

theorem reboot (h : Ledger w gs) (stuck : String → Bool) :
    Ledger { w with files := w.files.orphanScan stuck } fun _ => none := by
  refine ⟨fun id hid => ⟨(h.records id hid).1, ?_⟩, .idle, .idle, .idle⟩
  rintro ⟨i, g, hi, -⟩
  cases hi

/-- The id is spent by the call that creates the record. -/
theorem spent_create (h : Ledger w gs) (hi : gs i = some g) {e : Env} {op : Call} {r : Reply op}
    (hans : w.answer e op = some (r, w')) {id : String} (hid : g.newId = some id)
    (hnone : (g.upd op r).newId = none) :
    Spent w' (Function.update gs i (some (g.upd op r))) id := by
  refine ⟨Store.issued_answer hans id (h.pending i g hi id hid), fun hp => ?_⟩
  rcases hp.of_update with hnew | ⟨j, g', hj, hgj, hid'⟩
  · rw [hnone] at hnew
    cases hnew
  · -- Another request waiting with the same id would not be exclusive.
    exact h.exclusive j i g' g hj hgj hi (show id ∈ g'.newId.toList by simp [hid'])
      (by simp [hid])

theorem ask (h : Ledger w gs) (hi : gs i = some g) {e : Env} {op : Call} {r : Reply op}
    (hpre : g.pre op) (hans : w.answer e op = some (r, w')) :
    Ledger w' (Function.update gs i (some (g.upd op r))) := by
  refine ⟨?_, h.seen.set ?_ ?_, h.pending.set ?_ ?_, h.exclusive.set ?_⟩
  · intro id hid
    rcases Store.recordIds_answer hans id hid with hold | ⟨blob, now, rfl⟩
    · exact (h.records id hold).ask hi hans
    · cases r with
      | error err =>
          -- A failed create leaves the rows as they are.
          rw [(Store.answer_db_error hans).1] at hid
          exact (h.records id hid).ask hi hans
      | ok _ => exact h.spent_create hi hans hpre.1 rfl
  · intro id hid
    rcases seen_answer hpre hans hid with hold | hrec | ⟨hnew, hnone⟩
    · exact (h.seen i g hi id hold).ask hi hans
    · exact (h.records id hrec).ask hi hans
    · exact h.spent_create hi hans hnew hnone
  · exact fun j g' _ _ hg' id hid => (hg' id hid).ask hi hans
  · intro id hid
    rcases newId_answer hans hid with hold | ⟨-, hnew⟩
    · exact Store.issued_answer hans id (h.pending i g hi id hold)
    · exact hnew
  · exact fun j g' _ _ hg' id hid => Store.issued_answer hans id (hg' id hid)
  · intro j g' hj hgj id hid hid'
    simp only [Option.mem_toList] at hid hid'
    -- A new id is not the one that another request waits with, since that one was issued before.
    rcases newId_answer hans hid with hold | ⟨hfresh, -⟩
    · exact h.exclusive j i g' g hj hgj hi (by simpa using hid') (by simpa using hold)
    · exact hfresh (h.pending j g' hgj id hid')

end Ledger

/-! ## The uploads a request holds, by its history -/

/-- How an event changes the ids of the uploads that are renamed and have no row yet. -/
def heldStep (ids : List String) : Event Reply Env Boot Request Response → List String
  | .ask _ _ (.file (.finalizeUpload id)) (.ok _) => ids ++ [id]
  | .ask _ _ (.file (.deleteAttachment id)) _ => ids.erase id
  | .ask _ _ (.db (.insertAttachment a)) (.ok _) => ids.erase a.id
  | _ => ids

def held (tr : Log) : List String :=
  tr.foldl heldStep []

theorem held_snoc (tr : Log) (e : Event Reply Env Boot Request Response) :
    held (tr ++ [e]) = heldStep (held tr) e := by
  rw [held, List.foldl_append]
  rfl

theorem held_ask {tr : Log} {i : ℕ} {e : Env} {g : Held} {op : Call} {r : Reply op}
    (hpre : g.pre op) (h : g.files.map (·.1) = held (byThread i tr)) :
    (g.upd op r).files.map (·.1) = held (byThread i (tr ++ [.ask i e op r])) := by
  rw [byThread_snoc_self rfl, held_snoc, ← h]
  cases op with
  | file c =>
      cases c with
      | finalizeUpload id =>
          -- The precondition says which temp file is renamed.
          rcases hpre with ⟨-, b, hb, -⟩
          cases r <;> simp [Held.upd, Held.updFile, heldStep, hb]
      | deleteAttachment id => simp [Held.upd, Held.updFile, heldStep, Held.map_eraseP_fst]
      | beginUpload => cases r <;> rfl
      | writeAll id chunk => cases r <;> rfl
      | abortUpload id => rfl
  | db c =>
      cases c with
      | insertAttachment a =>
          cases r <;> simp [Held.upd, Held.updDb, heldStep, Held.map_eraseP_fst]
      | _ =>
          rw [Held.upd, Held.files_updDb _ _ (by simp)]
          rfl
  | _ => rfl

theorem held_other {tr : Log} {i : ℕ} {g : Held}
    (h : g.files.map (·.1) = held (byThread i tr)) {e : Event Reply Env Boot Request Response}
    (he : e.thread? ≠ some i) : g.files.map (·.1) = held (byThread i (tr ++ [e])) := by
  rwa [byThread_snoc_other he]

end Aardbin
