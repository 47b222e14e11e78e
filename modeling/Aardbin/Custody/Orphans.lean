import Aardbin.Custody.Ledger

/-!
# Custody of files: no orphans

In a store without faults every file has a row or somebody who will remove it.  The one exception
is built into the handlers: an update that finds its record deleted at the write returns without
removing its uploads, and `insert_uploads` gives up at the first refused row without removing the
uploads after it.  The runs below are the ones in which no request gets there while it holds such
uploads.
-/

namespace Aardbin

open Effect

/-! ## The condition -/

/-- No call fails of itself, no request is abandoned and the process does not stop. -/
def Faultless : Guard Reply Server Env Boot Request Response
  | _, _, .ask _ e _ _ => e.fault = false
  | _, _, .abandon _ => False
  | _, _, .reboot _ => False
  | _, _, _ => True

/-- The record that a write to the database needs. -/
def Call.record? : Call → Option String
  | .db (.updateRecord id _ _) => some id
  | .db (.insertAttachment a) => some a.recordId
  | _ => none

/-- The uploads `ids` other than the one that the call inserts. -/
def Call.others : Call → List String → List String
  | .db (.insertAttachment a), ids => ids.erase a.id
  | _, ids => ids

/-- Where the record has been deleted meanwhile, the request holds no upload that it would leave
behind. -/
def Unstranded (tr : Log) (c : Pool Reply Server Response) (i : ℕ) (op : Call) : Prop :=
  ∀ id ∈ op.record?, id ∈ c.shared.store.db.recordIds ∨ op.others (held (byThread i tr)) = []

instance (tr : Log) (c : Pool Reply Server Response) (i : ℕ) (op : Call) :
    Decidable (Unstranded tr c i op) :=
  inferInstanceAs (Decidable (∀ _ ∈ op.record?, _ ∨ _))

def Tidy : Guard Reply Server Env Boot Request Response
  | tr, c, .ask i e op _ => e.fault = false ∧ Unstranded tr c i op
  | _, _, .abandon _ => False
  | _, _, .reboot _ => False
  | _, _, _ => True

instance (tr : Log) (c : Pool Reply Server Response) :
    (e : Event Reply Env Boot Request Response) → Decidable (Faultless tr c e)
  | .ask _ e _ _ => inferInstanceAs (Decidable (e.fault = false))
  | .abandon _ => inferInstanceAs (Decidable False)
  | .reboot _ => inferInstanceAs (Decidable False)
  | .start _ _ => inferInstanceAs (Decidable True)
  | .finish _ _ => inferInstanceAs (Decidable True)

instance (tr : Log) (c : Pool Reply Server Response) :
    (e : Event Reply Env Boot Request Response) → Decidable (Tidy tr c e)
  | .ask _ _ _ _ => inferInstanceAs (Decidable (_ ∧ _))
  | .abandon _ => inferInstanceAs (Decidable False)
  | .reboot _ => inferInstanceAs (Decidable False)
  | .start _ _ => inferInstanceAs (Decidable True)
  | .finish _ _ => inferInstanceAs (Decidable True)

/-- `data/tmp` is empty, and the files of `data/attachments` are the ids of the table. -/
def NoOrphans (w : Store) : Prop :=
  (∀ id, w.files.tmp id = none) ∧
    ∀ id, (w.files.attachments id).isSome ↔ id ∈ w.db.attachmentIds

/-! ## Coverage -/

/-- Every file is known to the database or to a request in flight. -/
structure Covered (w : Store) (gs : ℕ → Option Held) : Prop where
  tmp : ∀ id, w.files.tmp id ≠ none → ∃ i g b, gs i = some g ∧ g.tmp = some (id, b)
  files : ∀ id, w.files.attachments id ≠ none →
    id ∈ w.db.attachmentIds ∨ ∃ i g, gs i = some g ∧ (id ∈ g.files.map (·.1) ∨ id ∈ g.doomed)

/-- The database knows the file, or this request does. -/
def Knows (w : Store) (g : Held) (id : String) : Prop :=
  id ∈ w.db.attachmentIds ∨ id ∈ g.files.map (·.1) ∨ id ∈ g.doomed

/-- A temp file is the one the request writes, or was there before and is another's. -/
theorem tmp_answer {e : Env} {g : Held} {w w' : Store} {op : Call} {r : Reply op}
    (hfault : e.fault = false) (hg : g.Holds w) (hpre : g.pre op)
    (h : w.answer e op = some (r, w')) {id : String} (hid : w'.files.tmp id ≠ none) :
    (∃ b, (g.upd op r).tmp = some (id, b)) ∨
      (w.files.tmp id ≠ none ∧ ∀ b, g.tmp ≠ some (id, b)) := by
  -- Most calls touch no temp file.
  have hsame : w'.files.tmp = w.files.tmp → (g.upd op r).tmp = g.tmp →
      (∃ b, (g.upd op r).tmp = some (id, b)) ∨
        (w.files.tmp id ≠ none ∧ ∀ b, g.tmp ≠ some (id, b)) := by
    intro hw hu
    by_cases hmine : ∃ b, g.tmp = some (id, b)
    · exact .inl (hu ▸ hmine)
    · exact .inr ⟨hw ▸ hid, not_exists.1 hmine⟩
  cases op with
  | file c =>
      cases c with
      | beginUpload =>
          rcases Store.answer_beginUpload h with ⟨-, -, hf⟩ | ⟨id', rfl, -, rfl⟩
          · simp [hfault] at hf
          by_cases hne : id = id'
          · exact .inl ⟨[], by simp [Held.upd, Held.updFile, hne]⟩
          · -- A request begins an upload only when the one before is finished or aborted.
            refine .inr ⟨by simpa [FileStore.beginUpload, hne] using hid, fun b hb => ?_⟩
            have htmp : g.tmp = none := hpre
            simp [htmp] at hb
      | writeAll id' chunk =>
          rcases hpre with ⟨b, hb⟩
          rcases Store.answer_writeAll h with ⟨-, -, hf⟩ | ⟨rfl, rfl⟩
          · simp [hfault] at hf
          by_cases hne : id = id'
          · exact .inl ⟨b ++ chunk, by simp [Held.upd, Held.updFile, hb, hne]⟩
          · refine .inr ⟨by simpa [FileStore.writeAll, hne] using hid, fun b' hb' => ?_⟩
            simp only [hb, Option.some.injEq, Prod.mk.injEq] at hb'
            exact hne hb'.1.symm
      | finalizeUpload id' =>
          rcases hpre with ⟨-, b, hb, -⟩
          rcases Store.answer_finalizeUpload h with ⟨_, -, -, hf⟩ | ⟨_, -, rfl, rfl⟩
          · simp [hfault, hg.tmp _ hb] at hf
          -- The temp file of the request is gone, so this one is another's.
          have hne : id ≠ id' := by
            rintro rfl
            simp at hid
          refine .inr ⟨by simpa [hne] using hid, fun b' hb' => ?_⟩
          simp only [hb, Option.some.injEq, Prod.mk.injEq] at hb'
          exact hne hb'.1.symm
      | abortUpload id' =>
          rcases hpre with ⟨b, hb⟩
          obtain rfl := Store.answer_abortUpload_calm h hfault
          have hne : id ≠ id' := by
            rintro rfl
            simp [FileStore.abortUpload] at hid
          refine .inr ⟨by simpa [FileStore.abortUpload, hne] using hid, fun b' hb' => ?_⟩
          simp only [hb, Option.some.injEq, Prod.mk.injEq] at hb'
          exact hne hb'.1.symm
      | deleteAttachment id' =>
          obtain rfl := Store.answer_deleteAttachment_calm h hfault
          exact hsame rfl rfl
  | db c =>
      refine hsame ?_ ?_
      · rcases Store.answer_db h with ⟨err, -, rfl, -⟩ | ⟨v, db, -, -, -, rfl⟩ <;> rfl
      · exact g.tmp_updDb c r
  | newV4 =>
      rcases Store.answer_newV4 h with ⟨-, rfl⟩
      exact hsame rfl rfl
  | panic => cases h
  | _ =>
      cases h
      exact hsame rfl rfl

theorem knows_exec {g : Held} {w : Store} {c : DbCall} {v : c.Val} {db : Db}
    (h : w.db.exec c = .ok (v, db)) {id : String} (hknown : Knows w g id) :
    Knows { w with db } (g.upd (.db c) (.ok v)) id := by
  cases c with
  | createRecord id' blob now =>
      unfold Knows Db.attachmentIds
      rw [(Db.createRecord_eq_ok (Db.of_exec_createRecord h)).2.2]
      exact hknown
  | updateRecord id' blob now =>
      have hsame : Knows { w with db } g id := by
        cases h
        exact hknown
      cases v <;> exact hsame
  | insertAttachment a =>
      have hids : db.attachmentIds = w.db.attachmentIds ++ [a.id] := by
        simp [Db.attachmentIds,
          (Db.insertAttachment_eq_ok (Db.of_exec_insertAttachment h)).2.2.2]
      -- The file of the new row passes from the request to the database.
      by_cases hne : id = a.id
      · exact .inl (by simp [hids, hne])
      · rcases hknown with hrow | hfile | hdoomed
        · exact .inl (by simp [hids, hrow])
        · refine .inr (.inl ?_)
          simp only [Held.upd, Held.updDb, Held.map_eraseP_fst]
          exact (List.mem_erase_of_ne hne).2 hfile
        · exact .inr (.inr hdoomed)
  | deleteRecord id' =>
      simp only [Db.exec, Except.ok.injEq] at h
      rcases v with _ | ids
      · rw [(Db.deleteRecord_eq_none h).2]
        exact hknown
      · rcases Db.deleteRecord_eq_some h with ⟨-, rfl, -, hrows⟩
        rcases hknown with hrow | hfile | hdoomed
        · rcases List.mem_map.1 hrow with ⟨a, ha, rfl⟩
          -- The cascade drops the rows of the record, and the request is told their ids.
          by_cases har : a.recordId = id'
          · refine .inr (.inr (List.mem_append_right _ (List.mem_map_of_mem ?_)))
            exact List.mem_filter.2 ⟨ha, by simpa using har⟩
          · refine .inl (List.mem_map_of_mem ?_)
            rw [hrows]
            exact List.mem_filter.2 ⟨ha, by simpa using har⟩
        · exact .inr (.inl hfile)
        · exact .inr (.inr (List.mem_append_left _ hdoomed))
  | deleteAttachment recordId attachmentId =>
      simp only [Db.exec, Except.ok.injEq] at h
      rcases v with _ | row
      · rw [Db.deleteAttachment_eq_none h]
        exact hknown
      · rcases Db.deleteAttachment_eq_some h with ⟨-, -, -, -, hrows⟩
        rcases hknown with hrow | hfile | hdoomed
        · by_cases hne : id = attachmentId
          · -- The row is dropped and its file doomed by the same call.
            exact .inr (.inr (by simp [Held.upd, Held.updDb, hne]))
          · rcases List.mem_map.1 hrow with ⟨a, ha, rfl⟩
            refine .inl (List.mem_map_of_mem ?_)
            rw [hrows]
            exact List.mem_filter.2 ⟨ha, by simp [hne]⟩
        · exact .inr (.inl hfile)
        · exact .inr (.inr (List.mem_append_left _ hdoomed))
  | attachmentsForRecords ids =>
      rw [(Db.of_exec_attachmentsForRecords h).2]
      exact hknown
  | _ =>
      cases h
      exact hknown

/-- A file that the request or the database knows is still known after a call, or removed. -/
theorem knows_answer {e : Env} {g : Held} {w w' : Store} {op : Call} {r : Reply op}
    (hfault : e.fault = false) (h : w.answer e op = some (r, w')) {id : String}
    (hknown : Knows w g id) (hid : w'.files.attachments id ≠ none) : Knows w' (g.upd op r) id := by
  cases op with
  | file c =>
      have hdb : w'.db = w.db := Store.db_answerFile h
      rcases hknown with hrow | hfile | hdoomed
      · exact .inl (hdb ▸ hrow)
      · cases c with
        | deleteAttachment id' =>
            obtain rfl := Store.answer_deleteAttachment_calm h hfault
            have hne : id ≠ id' := by
              rintro rfl
              simp [FileStore.deleteAttachment] at hid
            refine .inr (.inl ?_)
            simp only [Held.upd, Held.updFile, Held.map_eraseP_fst]
            exact (List.mem_erase_of_ne hne).2 hfile
        | finalizeUpload id' =>
            cases r with
            | error err => exact .inr (.inl hfile)
            | ok size => exact .inr (.inl (by simp [Held.upd, Held.updFile, hfile]))
        | abortUpload id' => exact .inr (.inl hfile)
        | _ => cases r <;> exact .inr (.inl hfile)
      · cases c with
        | deleteAttachment id' =>
            obtain rfl := Store.answer_deleteAttachment_calm h hfault
            have hne : id ≠ id' := by
              rintro rfl
              simp [FileStore.deleteAttachment] at hid
            exact .inr (.inr ((List.mem_erase_of_ne hne).2 hdoomed))
        | abortUpload id' => exact .inr (.inr hdoomed)
        | _ => cases r <;> exact .inr (.inr hdoomed)
  | db c =>
      rcases Store.answer_db h with ⟨err, rfl, rfl, -⟩ | ⟨v, db, -, hexec, rfl, rfl⟩
      · -- A failed call teaches the request at most that a record is gone.
        rcases g.upd_error c err with ⟨gone, hupd⟩
        rw [hupd]
        exact hknown
      · exact knows_exec hexec hknown
  | newV4 =>
      rcases Store.answer_newV4 h with ⟨-, rfl⟩
      exact hknown
  | panic => cases h
  | _ =>
      cases h
      exact hknown

/-- A file appears only by a rename, and then the request knows it. -/
theorem files_answer {e : Env} {g : Held} {w w' : Store} {op : Call} {r : Reply op}
    (hg : g.Holds w) (hpre : g.pre op) (h : w.answer e op = some (r, w')) {id : String}
    (hid : w'.files.attachments id ≠ none) :
    w.files.attachments id ≠ none ∨ Knows w' (g.upd op r) id := by
  by_cases hold : w.files.attachments id = none
  · refine .inr (.inr (.inl ?_))
    cases op with
    | file c =>
        cases c with
        | beginUpload =>
            rcases Store.answer_beginUpload h with ⟨-, rfl, -⟩ | ⟨_, -, -, rfl⟩ <;>
              exact absurd hold hid
        | writeAll id' chunk =>
            rcases Store.answer_writeAll h with ⟨-, rfl, -⟩ | ⟨-, rfl⟩ <;> exact absurd hold hid
        | finalizeUpload id' =>
            rcases hpre with ⟨-, b, hb, -⟩
            rcases Store.answer_finalizeUpload h with ⟨_, -, rfl, -⟩ | ⟨_, -, rfl, rfl⟩
            · exact absurd hold hid
            · -- The rename: the file of this id becomes a finished upload of the request.
              by_cases hne : id = id'
              · simp [Held.upd, Held.updFile, hb, hne]
              · simp [hne, hold] at hid
        | abortUpload id' =>
            rcases Store.answer_abortUpload h with ⟨rfl, -⟩ | rfl <;> exact absurd hold hid
        | deleteAttachment id' =>
            rcases Store.answer_deleteAttachment h with ⟨rfl, -⟩ | rfl
            · exact absurd hold hid
            · by_cases hne : id = id'
              · simp [FileStore.deleteAttachment, hne] at hid
              · simp [FileStore.deleteAttachment, hne, hold] at hid
    | db c =>
        rcases Store.answer_db h with ⟨err, -, rfl, -⟩ | ⟨v, db, -, -, -, rfl⟩ <;>
          exact absurd hold hid
    | newV4 =>
        rcases Store.answer_newV4 h with ⟨-, rfl⟩
        exact absurd hold hid
    | panic => cases h
    | _ =>
        cases h
        exact absurd hold hid
  · exact .inl hold

/-! ## The invariant -/

structure Tidied (tr : Log) (w : Store) (gs : ℕ → Option Held) : Prop where
  kept : Kept tr w gs
  ledger : Ledger w gs
  covered : Covered w gs
  gone : Each (fun _ g => ∀ id ∈ g.gone, Spent w gs id ∧ id ∉ w.db.recordIds) gs
  holding : Each (fun i g => g.files.map (·.1) = held (byThread i tr)) gs

namespace Tidied

variable {tr : Log} {w w' : Store} {gs : ℕ → Option Held} {i : ℕ} {g : Held}

/-- A refused insert without a fault: the record is gone. -/
theorem refused (h : Tidied tr w gs) (hi : gs i = some g) {e : Env} {a : AttachmentRow}
    {err : DbError} (hfault : e.fault = false) (hpre : g.pre (.db (.insertAttachment a)))
    (hans : w.answer e (.db (.insertAttachment a)) = some (.error err, w')) :
    a.recordId ∉ w.db.recordIds := by
  rcases (Store.answer_db_error hans).2 with hf | hexec
  · rw [hfault] at hf
    cases hf
  · rcases Db.of_exec_insertAttachment_error hexec with hkey | href
    · -- The id of an upload that the request holds is in no row.
      rcases hpre with ⟨-, b, hb, -⟩
      exact absurd hkey ((h.kept.holds i g hi).unlisted _ (Held.mem_owned_files hb))
    · exact href

theorem steady {c : Pool Reply Server Response} (h : Tidied tr c.shared.store gs)
    (hi : gs i = some g) {e : Env} {op : Call} {r : Reply op} (hfault : e.fault = false)
    (htidy : Unstranded tr c i op) (hpre : g.pre op)
    (hans : c.shared.store.answer e op = some (r, w')) : g.Steady op r := by
  have hheld := h.holding i g hi
  cases op with
  | db d =>
      cases d with
      | updateRecord id blob now =>
          rcases r with err | _ | _
          · trivial
          · rcases Store.answer_db_ok hans with ⟨db, -, hexec, -⟩
            simp only [Db.exec, Db.updateRecord, Except.ok.injEq, Prod.mk.injEq,
              decide_eq_false_iff_not] at hexec
            -- The update has found no row, so the condition says that nothing is held.
            rcases htidy id rfl with hmem | hnone
            · exact absurd hmem hexec.1
            · rw [show Call.others _ _ = held (byThread i tr) from rfl, ← hheld] at hnone
              simpa [Held.Steady] using hnone
          · trivial
      | insertAttachment a =>
          cases r with
          | ok _ => trivial
          | error err =>
              rcases htidy a.recordId rfl with hmem | hnone
              · exact absurd hmem (h.refused hi hfault hpre hans)
              · rw [show Call.others _ _ = (held (byThread i tr)).erase a.id from rfl, ← hheld,
                  ← Held.map_eraseP_fst] at hnone
                simpa only [Held.Steady, List.map_eq_nil_iff] using hnone
      | deleteRecord id =>
          rcases r with err | _ | ids
          · trivial
          · trivial
          · rcases Store.answer_db_ok hans with ⟨db, -, hexec, -⟩
            simp only [Db.exec, Except.ok.injEq] at hexec
            -- A record that is gone does not come back, so the delete has not found it.
            intro hgone
            exact (h.gone i g hi id hgone).2 (Db.deleteRecord_eq_some hexec).1
      | _ => cases r <;> trivial
  | file d => cases d <;> trivial
  | _ => trivial

/-- Records known to be gone were created once and are not there any more. -/
theorem gone_upd (h : Tidied tr w gs) (hi : gs i = some g) {e : Env} {op : Call} {r : Reply op}
    (hfault : e.fault = false) (hpre : g.pre op) (hans : w.answer e op = some (r, w')) :
    ∀ id ∈ (g.upd op r).gone, Spent w gs id ∧ id ∉ w.db.recordIds := by
  intro id hid
  have hold : id ∈ g.gone → Spent w gs id ∧ id ∉ w.db.recordIds := h.gone i g hi id
  cases op with
  | db c =>
      cases c with
      | insertAttachment a =>
          cases r with
          | ok _ => exact hold hid
          | error err =>
              rcases List.mem_cons.1 hid with rfl | hid
              · exact ⟨h.ledger.seen i g hi _ hpre.1, h.refused hi hfault hpre hans⟩
              · exact hold hid
      | _ =>
          rw [Held.upd, Held.gone_updDb _ _ (by simp)] at hid
          exact hold hid
  | file c =>
      rw [Held.upd, Held.gone_updFile] at hid
      exact hold hid
  | _ => exact hold hid

theorem covered_ask (h : Tidied tr w gs) (hi : gs i = some g) {e : Env} {op : Call}
    {r : Reply op} (hfault : e.fault = false) (hpre : g.pre op)
    (hans : w.answer e op = some (r, w')) :
    Covered w' (Function.update gs i (some (g.upd op r))) := by
  have hg : g.Holds w := h.kept.holds i g hi
  refine ⟨fun id hid => ?_, fun id hid => ?_⟩
  · rcases tmp_answer hfault hg hpre hans hid with ⟨b, hb⟩ | ⟨hold, hnot⟩
    · exact ⟨i, g.upd op r, b, by simp, hb⟩
    · -- Somebody else's temp file, and that request is as it was.
      rcases h.covered.tmp id hold with ⟨j, g', b, hj, hb⟩
      have hne : j ≠ i := by
        rintro rfl
        rw [hi, Option.some.injEq] at hj
        exact hnot b (hj ▸ hb)
      exact ⟨j, g', b, by simpa [hne] using hj, hb⟩
  · have hmine : Knows w' (g.upd op r) id → id ∈ w'.db.attachmentIds ∨
        ∃ j g', Function.update gs i (some (g.upd op r)) j = some g' ∧
          (id ∈ g'.files.map (·.1) ∨ id ∈ g'.doomed) := by
      rintro (hrow | hmem)
      · exact .inl hrow
      · exact .inr ⟨i, g.upd op r, by simp, hmem⟩
    rcases files_answer hg hpre hans hid with hold | hknown
    · -- Either the request or the database knew the file before the call, or another request did.
      by_cases hknown : Knows w g id
      · exact hmine (knows_answer hfault hans hknown hid)
      · rcases h.covered.files id hold with hrow | ⟨j, g', hj, hmem⟩
        · exact absurd (.inl hrow) hknown
        · have hne : j ≠ i := by
            rintro rfl
            rw [hi, Option.some.injEq] at hj
            exact hknown (.inr (hj ▸ hmem))
          exact .inr ⟨j, g', by simpa [hne] using hj, hmem⟩
    · exact hmine hknown

theorem empty : Tidied [] .empty fun _ => none :=
  ⟨.empty, .empty, ⟨by simp [Store.empty, FileStore.empty], by simp [Store.empty, FileStore.empty]⟩,
    .idle, .idle⟩

theorem start (h : Tidied tr w gs) (req : Request) (hunused : Outline.Unused i tr)
    (hi : gs i = none) :
    Tidied (tr ++ [.start i req]) w (Function.update gs i (some (Held.born req))) := by
  have hne : ∀ j g, gs j = some g → j ≠ i := by
    rintro j g hj rfl
    simp [hi] at hj
  refine ⟨h.kept.start req hunused, h.ledger.start req, ⟨fun id hid => ?_, fun id hid => ?_⟩,
    h.gone.set ?_ ?_, h.holding.set ?_ ?_⟩
  · rcases h.covered.tmp id hid with ⟨j, g, b, hj, hb⟩
    exact ⟨j, g, b, by simpa [hne j g hj] using hj, hb⟩
  · rcases h.covered.files id hid with hrow | ⟨j, g, hj, hmem⟩
    · exact .inl hrow
    · exact .inr ⟨j, g, by simpa [hne j g hj] using hj, hmem⟩
  · intro id hid
    cases hid
  · exact fun j g _ _ hg id hid => ⟨(hg id hid).1.start i req, (hg id hid).2⟩
  · rw [byThread_snoc_self rfl, hunused.byThread]
    rfl
  · intro j g hj _ hg
    exact held_other hg (by simpa [Event.thread?] using Ne.symm hj)

theorem ask (h : Tidied tr w gs) (hi : gs i = some g) {e : Env} {op : Call} {r : Reply op}
    (hfault : e.fault = false) (hpre : g.pre op) (hans : w.answer e op = some (r, w')) :
    Tidied (tr ++ [.ask i e op r]) w' (Function.update gs i (some (g.upd op r))) := by
  -- A spent id never becomes a record again.
  have hgone : ∀ id, Spent w gs id ∧ id ∉ w.db.recordIds →
      Spent w' (Function.update gs i (some (g.upd op r))) id ∧ id ∉ w'.db.recordIds := by
    rintro id ⟨hspent, hnot⟩
    exact ⟨hspent.ask hi hans, hspent.not_recreated hi hpre hans hnot⟩
  refine ⟨h.kept.ask hi hpre hans, h.ledger.ask hi hpre hans, h.covered_ask hi hfault hpre hans,
    h.gone.set ?_ ?_, h.holding.set (held_ask hpre (h.holding i g hi)) ?_⟩
  · exact fun id hid => hgone id (h.gone_upd hi hfault hpre hans id hid)
  · exact fun j g' _ _ hg' id hid => hgone id (hg' id hid)
  · intro j g' hj _ hg'
    exact held_other hg' (by simpa [Event.thread?] using Ne.symm hj)

theorem finish (h : Tidied tr w gs) (hi : gs i = some g) (hg : g.Settled)
    {e : Event Reply Env Boot Request Response} (he : e.thread? = some i) :
    Tidied (tr ++ [e]) w (Function.update gs i none) := by
  refine ⟨h.kept.drop he, h.ledger.drop, ⟨fun id hid => ?_, fun id hid => ?_⟩,
    h.gone.drop ?_, h.holding.drop ?_⟩
  · rcases h.covered.tmp id hid with ⟨j, g', b, hj, hb⟩
    have hne : j ≠ i := by
      rintro rfl
      rw [hi, Option.some.injEq] at hj
      subst hj
      rw [hg.tmp] at hb
      cases hb
    exact ⟨j, g', b, by simpa [hne] using hj, hb⟩
  · rcases h.covered.files id hid with hrow | ⟨j, g', hj, hmem⟩
    · exact .inl hrow
    · -- The request that ends is settled: it holds no file and dooms none.
      have hne : j ≠ i := by
        rintro rfl
        rw [hi, Option.some.injEq] at hj
        subst hj
        simp [hg.files, hg.doomed] at hmem
      exact .inr ⟨j, g', by simpa [hne] using hj, hmem⟩
  · exact fun j g' _ _ hg' id hid => ⟨(hg' id hid).1.drop i, (hg' id hid).2⟩
  · intro j g' hj _ hg'
    refine held_other hg' ?_
    rw [he]
    simpa using Ne.symm hj

/-- With nobody in flight, the database knows every file. -/
theorem noOrphans (h : Tidied tr w gs) (hquiet : ∀ i, gs i = none) : NoOrphans w := by
  refine ⟨fun id => ?_, fun id => ⟨fun hid => ?_, fun hid => ?_⟩⟩
  · by_contra htmp
    rcases h.covered.tmp id htmp with ⟨i, g, b, hi, -⟩
    rw [hquiet i] at hi
    cases hi
  · rcases h.covered.files id (by simpa [Option.isSome_iff_ne_none] using hid) with
      hrow | ⟨i, g, hi, -⟩
    · exact hrow
    · rw [hquiet i] at hi
      cases hi
  · rcases List.mem_map.1 hid with ⟨a, ha, rfl⟩
    rcases h.kept.listed a ha with ⟨-, b, hfile, -⟩
    simp [hfile]

end Tidied

/-! ## Runs -/

/-- The proof outline: every reply is steady, so every request ends with nothing in custody. -/
def tidying : Outline server (custody True) where
  born := fun _ req => Held.born req
  post := fun _ _ g => g.Settled
  inv := fun tr s gs => Tidied tr s.store gs

theorem tidying_valid : tidying.Valid Tidy where
  handler := by
    intro s req
    exact wp_mono (wp_handle s.app req) fun _ _ h => h trivial
  start := by
    intro tr c gs i req _ hunused hi h
    exact h.start req hunused hi
  ask := by
    intro tr c gs i g e op r s' hguard _ hi hpre hans h
    have hstore := (Server.answer_eq_some hans).1
    exact ⟨g.upd op r, ⟨rfl, fun _ => h.steady hi hguard.1 hguard.2 hpre hstore⟩,
      h.ask hi hguard.1 hpre hstore⟩
  finish := by
    intro tr c gs i g req res _ _ hi hg h
    exact h.finish hi hg rfl
  abandon := by
    intro tr c gs i g hguard
    exact hguard.elim
  reboot := by
    intro tr c gs b hguard
    exact hguard.elim

/-- No interleaving leaves an orphan, as long as no request holds uploads that it would strand when
it finds its record deleted. -/
theorem no_orphans_of_tidy (app : AppState) {tr : Log} {c : Pool Reply Server Response}
    (h : server.Run Tidy { app, store := .empty } tr c) (hquiet : c.Quiet) :
    NoOrphans c.shared.store := by
  have hempty : tidying.inv [] { app, store := .empty } fun _ => none := Tidied.empty
  rcases tidying_valid.run hempty h with ⟨gs, hinv, hfollows, -⟩
  exact Tidied.noOrphans hinv fun i => (hfollows i).none_iff.1 (hquiet i)

/-- A record is created with one file, gets a second one, and is deleted while a third request
reads it for an update without files. -/
theorem no_orphans_of_tidy_run : ∃ tr c,
    server.Run Tidy { app := .plain, store := .empty } tr c ∧ c.Quiet ∧ tr.length = 34 ∧
      NoOrphans c.shared.store := by
  have hplay : ∃ tr c, server.Run Tidy { app := .plain, store := .empty } tr c ∧
      c.quietBelow = true ∧ tr.length = 34 := by
    refine Service.exists_run (.start (.create noHeaders (form "a" "b" [[1, 2, 3]])) ::
      stepsOf 0 [{ uuid := "f1" }, {}, {}, { uuid := "r1" }, {}, {}, {}, {}, {}, {}] ++
      .start (.update "r1" noHeaders (form "c" "d" [[4]])) ::
      stepsOf 1 [{}, { uuid := "f2" }, {}, {}, {}, {}, {}, {}, {}, {}] ++
      .start (.update "r1" noHeaders (form "e" "f" [])) :: stepsOf 2 [{}] ++
      .start (.delete "r1") :: stepsOf 3 [{}, {}, {}] ++ stepsOf 2 [{}, {}, {}, {}] ++
      stepsOf 3 [{}, {}]) ?_
    decide
  rcases hplay with ⟨tr, c, hrun, hquiet, hlen⟩
  exact ⟨tr, c, hrun, hrun.quiet hquiet, hlen, no_orphans_of_tidy _ hrun (hrun.quiet hquiet)⟩

/-- A delete between the read and the write of an update with one file: the update answers 404 and
leaves the file behind. -/
theorem orphan_after_delete :
    ¬ ∀ (app : AppState) (tr : Log) (c : Pool Reply Server Response),
      server.Run Faultless { app, store := .empty } tr c → c.Quiet → NoOrphans c.shared.store := by
  intro hall
  have hplay : ∃ tr c, server.Run Faultless { app := .plain, store := .empty } tr c ∧
      c.quietBelow = true ∧ c.shared.store.files.attachments "f1" = some [1, 2, 3] ∧
        c.shared.store.db.attachmentIds = [] := by
    refine Service.exists_run (.start (.create noHeaders (form "a" "b" [])) ::
      stepsOf 0 [{ uuid := "r1" }, {}, {}, {}, {}, {}] ++
      .start (.update "r1" noHeaders (form "c" "d" [[1, 2, 3]])) ::
      stepsOf 1 [{}, { uuid := "f1" }, {}, {}] ++
      .start (.delete "r1") :: stepsOf 2 [{}, {}, {}] ++ stepsOf 1 [{}, {}, {}, {}]) ?_
    decide
  rcases hplay with ⟨tr, c, hrun, hquiet, hfile, hids⟩
  have hrow := ((hall _ tr c hrun (hrun.quiet hquiet)).2 "f1").1 (by simp [hfile])
  simp [hids] at hrow

end Aardbin
