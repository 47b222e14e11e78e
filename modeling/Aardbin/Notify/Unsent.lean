import Aardbin.FormText

/-!
# Writes to the tables that no notification follows

`data_changed` is one `send` on the broadcast channel.  A write is unsent as long as no `send`
follows it.
-/

namespace Aardbin

open Effect

/-- Does a call with this reply write to one of the tables? -/
def DbCall.writes : (c : DbCall) → c.Val → Bool
  | .createRecord _ _ _, _ => true
  | .updateRecord _ _ _, found => found
  | .touchRecord _ _, _ => true
  | .deleteRecord _, found => found.isSome
  | .insertAttachment _, _ => true
  | .deleteAttachment _ _, found => found.isSome
  | _, _ => false

def Call.writes : (op : Call) → Reply op → Bool
  | .db c, .ok v => c.writes v
  | _, _ => false

/-- Is there an unsent write after this call? -/
def unsentStep (unsent : Bool) (op : Call) (r : Reply op) : Bool :=
  if op = .send then false else unsent || op.writes r

/-! ## Other calls change nothing -/

theorem Db.updateRecord_of_not_mem {db : Db} {id : String} (h : id ∉ db.recordIds) (blob : Bytes)
    (now : Int) : (db.updateRecord id blob now).2 = db := by
  refine Db.ext ?_ rfl
  -- No row has the id, so the map changes none.
  have hsame : ∀ row ∈ db.records,
      (if row.id = id then { row with blob, updatedAt := now } else row) = row := by
    intro row hrow
    rw [if_neg]
    rintro rfl
    exact h (List.mem_map_of_mem hrow)
  exact (List.map_congr_left hsame).trans (List.map_id' _)

theorem db_of_not_writes {db db' : Db} {c : DbCall} {v : c.Val} (h : db.exec c = .ok (v, db'))
    (hwrites : c.writes v = false) : db' = db := by
  cases c with
  | updateRecord id blob now =>
      simp only [Db.exec, Db.updateRecord, Except.ok.injEq, Prod.mk.injEq] at h
      rcases h with ⟨hv, rfl⟩
      have hid : id ∉ db.recordIds := of_decide_eq_false (hv.trans hwrites)
      exact db.updateRecord_of_not_mem hid blob now
  | deleteRecord id =>
      cases v with
      | none => exact (Db.deleteRecord_eq_none (Except.ok.inj h)).2
      | some ids => cases hwrites
  | deleteAttachment recordId attachmentId =>
      cases v with
      | none => exact Db.deleteAttachment_eq_none (Except.ok.inj h)
      | some row => cases hwrites
  | attachmentsForRecords ids => exact (Db.of_exec_attachmentsForRecords h).2
  | createRecord id blob now => cases hwrites
  | touchRecord id now => cases hwrites
  | insertAttachment a => cases hwrites
  | _ =>
      cases h
      rfl

namespace Store

theorem db_answer_of_not_writes {e : Env} {w w' : Store} {op : Call} {r : Reply op}
    (h : w.answer e op = some (r, w')) (hwrites : op.writes r = false) : w'.db = w.db := by
  revert hwrites
  refine answer_cases (P := fun op r db' => op.writes r = false → db' = w.db) h ?_ ?_
  · exact fun c v db hexec hwrites => db_of_not_writes hexec hwrites
  · exact fun _ _ _ => rfl

theorem db_answer_of_isFile {e : Env} {w w' : Store} {op : Call} {r : Reply op}
    (h : w.answer e op = some (r, w')) (hop : op.IsFile) : w'.db = w.db := by
  cases op with
  | file c => exact db_answerFile h
  | _ => exact hop.elim

end Store

end Aardbin
