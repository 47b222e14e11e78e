import Aardbin.Custody.Orphans

/-!
# Custody of files: the limit on the attachments of a record

`parse_record_form` counts the uploads of one request, and a new record starts without
attachments, so a create respects the limit.  An update adds its uploads to those the record has:
the limit holds in the runs where they fit when the update writes its record.
-/

namespace Aardbin

open Effect

/-! ## The condition -/

/-- How an event changes the records that the request has written. -/
def writtenStep (ids : List String) : Event Reply Env Boot Request Response → List String
  | .ask _ _ (.db (.createRecord id _ _)) (.ok _) => id :: ids
  | .ask _ _ (.db (.updateRecord id _ _)) (.ok true) => id :: ids
  | _ => ids

def written (tr : Log) : List String :=
  tr.foldl writtenStep []

theorem written_snoc (tr : Log) (e : Event Reply Env Boot Request Response) :
    written (tr ++ [e]) = writtenStep (written tr) e := by
  rw [written, List.foldl_append]
  rfl

/-- The attachment rows of a record. -/
def Db.attachmentCount (db : Db) (recordId : String) : ℕ :=
  (db.attachments.filter fun a => a.recordId = recordId).length

/-- The uploads that request `i`, and the other requests in flight that have written the record,
are still to insert. -/
def awaited (tr : Log) (c : Pool Reply Server Response) (recordId : String) (i : ℕ) : ℕ :=
  ∑ j ∈ Finset.range c.started,
    if (c.threads j).isSome ∧ (j = i ∨ recordId ∈ written (byThread j tr)) then
      (held (byThread j tr)).length
    else 0

/-- When an update writes its record, there is room for the uploads. -/
def Roomy : Guard Reply Server Env Boot Request Response
  | tr, c, .ask i e (.db (.updateRecord id _ _)) _ =>
      e.fault = false → id ∈ c.shared.store.db.recordIds →
        c.shared.store.db.attachmentCount id + awaited tr c id i ≤ maxAttachmentsPerRecord
  | _, _, _ => True

instance (tr : Log) (c : Pool Reply Server Response) :
    (e : Event Reply Env Boot Request Response) → Decidable (Roomy tr c e)
  | .ask _ _ op _ =>
      match op with
      | .db d =>
          match d with
          | .updateRecord _ _ _ => inferInstanceAs (Decidable (_ → _ → _ ≤ _))
          | .createRecord _ _ _ | .touchRecord _ _ | .deleteRecord _ | .getRecord _
          | .listRecords _ _ | .insertAttachment _ | .getAttachment _ | .listAttachments _
          | .attachmentsForRecords _ | .deleteAttachment _ _ | .allAttachmentIds => .isTrue trivial
      | .file _ | .newV4 | .now | .nonce | .send | .panic => .isTrue trivial
  | .start _ _ | .finish _ _ | .abandon _ | .reboot _ => .isTrue trivial

/-! ## The invariant -/

/-- The uploads that a request still has to insert on a record. -/
def reserve (recordId : String) (g : Held) : ℕ :=
  if recordId ∈ g.seen then g.files.length else 0

structure Limited (tr : Log) (w : Store) (gs : ℕ → Option Held) : Prop where
  ledger : Ledger w gs
  holding : Each (fun i g => g.files.map (·.1) = held (byThread i tr)) gs
  writing : Each (fun i g => g.seen = written (byThread i tr)) gs
  room : ∀ r, ∃ n, w.db.attachmentCount r + n ≤ maxAttachmentsPerRecord ∧ Within (reserve r) gs n

theorem written_ask {tr : Log} {i : ℕ} {e : Env} {g : Held} {op : Call} {r : Reply op}
    (h : g.seen = written (byThread i tr)) :
    (g.upd op r).seen = written (byThread i (tr ++ [.ask i e op r])) := by
  rw [byThread_snoc_self rfl, written_snoc, ← h]
  cases op with
  | db c =>
      cases c with
      | createRecord id blob now => cases r <;> rfl
      | updateRecord id blob now =>
          rcases r with _ | _ | _
          · rfl
          · rfl
          · rfl
      | _ =>
          rw [Held.upd, Held.seen_updDb _ _ (by simp) (by simp)]
          rfl
  | file c =>
      rw [Held.upd, Held.seen_updFile]
      rfl
  | _ => rfl

theorem attachmentCount_of_sublist {db db' : Db} (h : db'.attachments.Sublist db.attachments)
    (r : String) : db'.attachmentCount r ≤ db.attachmentCount r :=
  (h.filter _).length_le

/-- A record that does not exist has no attachments. -/
theorem attachmentCount_of_not_mem {db : Db} {r : String} (h : r ∉ db.recordIds) :
    db.attachmentCount r = 0 := by
  rw [Db.attachmentCount, List.length_eq_zero_iff, List.filter_eq_nil_iff]
  intro a ha heq
  rw [decide_eq_true_eq] at heq
  exact h (heq ▸ db.foreignKey a ha)

/-- Away from renames and writes of records, nobody's share grows. -/
theorem reserve_upd {g : Held} {op : Call} {r : Reply op} (recordId : String)
    (hseen : (g.upd op r).seen = g.seen) (hfiles : (g.upd op r).files.length ≤ g.files.length) :
    reserve recordId (g.upd op r) ≤ reserve recordId g := by
  unfold reserve
  rw [hseen]
  split_ifs
  · exact hfiles
  · exact Nat.le_refl 0

namespace Limited

variable {tr : Log} {w w' : Store} {gs : ℕ → Option Held} {i : ℕ} {g : Held}

theorem bound (h : Limited tr w gs) (r : String) :
    w.db.attachmentCount r ≤ maxAttachmentsPerRecord := by
  rcases h.room r with ⟨n, hn, -⟩
  omega

theorem empty : Limited [] .empty fun _ => none :=
  ⟨.empty, .idle, .idle, fun _ => ⟨0, Nat.zero_le _, .idle⟩⟩

theorem start (h : Limited tr w gs) (req : Request) (hunused : Outline.Unused i tr) :
    Limited (tr ++ [.start i req]) w (Function.update gs i (some (Held.born req))) := by
  refine ⟨h.ledger.start req, h.holding.set ?_ ?_, h.writing.set ?_ ?_, fun r => ?_⟩
  · rw [byThread_snoc_self rfl, hunused.byThread]
    rfl
  · exact fun j g hj _ hg => held_other hg (by simpa [Event.thread?] using Ne.symm hj)
  · rw [byThread_snoc_self rfl, hunused.byThread]
    rfl
  · intro j g hj _ hg
    rwa [byThread_snoc_other (by simpa [Event.thread?] using Ne.symm hj)]
  · rcases h.room r with ⟨n, hn, hwithin⟩
    exact ⟨n, hn, hwithin.start rfl⟩

theorem drop (h : Limited tr w gs) {e : Event Reply Env Boot Request Response}
    (he : e.thread? = some i) : Limited (tr ++ [e]) w (Function.update gs i none) := by
  have hne : ∀ j, j ≠ i → e.thread? ≠ some j := by
    intro j hj
    rw [he]
    simpa using Ne.symm hj
  refine ⟨h.ledger.drop, h.holding.drop ?_, h.writing.drop ?_, fun r => ?_⟩
  · exact fun j g hj _ hg => held_other hg (hne j hj)
  · intro j g hj _ hg
    rwa [byThread_snoc_other (hne j hj)]
  · rcases h.room r with ⟨n, hn, hwithin⟩
    exact ⟨n, hn, hwithin.drop⟩

theorem reboot (h : Limited tr w gs) (b : Boot) :
    Limited (tr ++ [.reboot b]) { w with files := w.files.orphanScan b.stuck } fun _ => none := by
  refine ⟨h.ledger.reboot b.stuck, .idle, .idle, fun r => ?_⟩
  rcases h.room r with ⟨n, hn, -⟩
  exact ⟨n, hn, .idle⟩

/-- A call that neither writes a record nor inserts a row leaves at least as much room. -/
theorem room_keep (h : Limited tr w gs) (hi : gs i = some g) {op : Call} {r : Reply op}
    (hrows : w'.db.attachments.Sublist w.db.attachments)
    (hreserve : ∀ recordId, reserve recordId (g.upd op r) ≤ reserve recordId g)
    (recordId : String) : ∃ n, w'.db.attachmentCount recordId + n ≤ maxAttachmentsPerRecord ∧
      Within (reserve recordId) (Function.update gs i (some (g.upd op r))) n := by
  rcases h.room recordId with ⟨n, hn, hwithin⟩
  have hcount := attachmentCount_of_sublist hrows recordId
  exact ⟨n, by omega, hwithin.keep hi (hreserve recordId)⟩

/-- A new record has no rows, nobody else has written it, and the form was counted. -/
theorem room_create (h : Limited tr w gs) (hi : gs i = some g) {e : Env} {id : String}
    {blob : Bytes} {now : Int} (hpre : g.pre (.db (.createRecord id blob now)))
    (hans : w.answer e (.db (.createRecord id blob now)) = some (.ok (), w')) (r : String) :
    ∃ n, w'.db.attachmentCount r + n ≤ maxAttachmentsPerRecord ∧ Within (reserve r)
      (Function.update gs i (some (g.upd (.db (.createRecord id blob now)) (.ok ())))) n := by
  rcases Store.answer_db_ok hans with ⟨db, -, hexec, rfl⟩
  have hdb := Db.createRecord_eq_ok (Db.of_exec_createRecord hexec)
  have hrows : db.attachments.Sublist w.db.attachments := by
    rw [hdb.2.2]
  by_cases hr : r = id
  · subst hr
    -- The id is still pending, so it is in nobody's list of written records.
    have hnone : Within (reserve r) gs 0 := by
      intro s
      refine le_of_eq (Finset.sum_eq_zero fun j _ => ?_)
      cases hj : gs j with
      | none => simp [share, hj]
      | some g' =>
          have hnot : r ∉ g'.seen := fun hmem =>
            (h.ledger.seen j g' hj r hmem).2 ⟨i, g, hi, hpre.1⟩
          simp [share, hj, reserve, hnot]
    have hcount : db.attachmentCount r ≤ w.db.attachmentCount r :=
      attachmentCount_of_sublist hrows r
    rw [attachmentCount_of_not_mem hdb.1] at hcount
    -- The whole limit is free, and `parse_record_form` has let no more uploads through.
    refine ⟨0 + maxAttachmentsPerRecord, by simpa using hcount, hnone.take hi ?_⟩
    have hle : reserve r (g.upd (.db (.createRecord r blob now)) (.ok ())) ≤ g.files.length := by
      unfold reserve
      split_ifs
      · exact Nat.le_refl _
      · exact Nat.zero_le _
    exact (hle.trans hpre.2).trans (Nat.le_add_left _ _)
  · rcases h.room r with ⟨n, hn, hwithin⟩
    refine ⟨n, ?_, hwithin.keep hi ?_⟩
    · exact le_trans (Nat.add_le_add_right (attachmentCount_of_sublist hrows r) n) hn
    · simp [reserve, Held.upd, Held.updDb, hr]

/-- A row comes out of the share of the request that inserts it. -/
theorem room_insert (h : Limited tr w gs) (hi : gs i = some g) {e : Env} {a : AttachmentRow}
    (hpre : g.pre (.db (.insertAttachment a)))
    (hans : w.answer e (.db (.insertAttachment a)) = some (.ok (), w')) (r : String) :
    ∃ n, w'.db.attachmentCount r + n ≤ maxAttachmentsPerRecord ∧ Within (reserve r)
      (Function.update gs i (some (g.upd (.db (.insertAttachment a)) (.ok ())))) n := by
  rcases Store.answer_db_ok hans with ⟨db, -, hexec, rfl⟩
  have hrows := (Db.insertAttachment_eq_ok (Db.of_exec_insertAttachment hexec)).2.2.2
  rcases hpre with ⟨hseen, b, hb, -⟩
  have hlen : (g.files.eraseP fun f => f.1 = a.id).length + 1 = g.files.length := by
    rw [List.length_eraseP_of_mem hb (by simp)]
    have hpos : 0 < g.files.length := List.length_pos_of_mem hb
    omega
  rcases h.room r with ⟨n, hn, hwithin⟩
  by_cases hr : a.recordId = r
  · subst hr
    -- One row more, and one upload less to insert.
    have hcount : db.attachmentCount a.recordId = w.db.attachmentCount a.recordId + 1 := by
      simp [Db.attachmentCount, hrows]
    have hshare : g.files.length ≤ n := by
      have hone := hwithin {i}
      rw [Finset.sum_singleton] at hone
      simpa [share, hi, reserve, hseen] using hone
    obtain ⟨m, rfl⟩ : ∃ m, n = m + 1 := ⟨n - 1, by omega⟩
    refine ⟨m, by simp only [hcount]; omega, hwithin.give hi ?_⟩
    simp only [reserve, Held.upd, Held.updDb, hseen, if_true]
    omega
  · have hcount : db.attachmentCount r = w.db.attachmentCount r := by
      simp [Db.attachmentCount, hrows, hr]
    refine ⟨n, by simpa only [hcount] using hn, hwithin.keep hi ?_⟩
    refine reserve_upd r rfl ?_
    simp only [Held.upd, Held.updDb]
    omega

/-- An update joins those that have written the record; the condition is about their sum. -/
theorem room_update {c : Pool Reply Server Response} (h : Limited tr c.shared.store gs)
    (htracks : Outline.Tracks gs c) (hi : gs i = some g) {e : Env} {id : String} {blob : Bytes}
    {now : Int} (hguard : Roomy tr c (.ask i e (.db (.updateRecord id blob now)) (.ok true)))
    (hans : c.shared.store.answer e (.db (.updateRecord id blob now)) = some (.ok true, w'))
    (r : String) : ∃ n, w'.db.attachmentCount r + n ≤ maxAttachmentsPerRecord ∧ Within (reserve r)
      (Function.update gs i (some (g.upd (.db (.updateRecord id blob now)) (.ok true)))) n := by
  rcases Store.answer_db_ok hans with ⟨db, hfault, hexec, rfl⟩
  simp only [Db.exec, Db.updateRecord, Except.ok.injEq, Prod.mk.injEq, decide_eq_true_eq] at hexec
  rcases hexec with ⟨hid, rfl⟩
  by_cases hr : r = id
  · subst hr
    refine ⟨awaited tr c r i, hguard hfault hid, ?_⟩
    have hlive : i < c.started := by
      by_contra hlt
      rw [htracks.fresh i (by omega)] at hi
      cases hi
    -- `awaited` sums over the requests started so far; term by term it bounds their shares.
    refine Within.of_range (m := c.started) (fun j hj => ?_) ?_
    · rw [Function.update_of_ne (by omega)]
      exact htracks.fresh j hj
    · refine Finset.sum_le_sum fun j _ => ?_
      have hsome : ∀ g', gs j = some g' → (c.threads j).isSome := by
        intro g' hj
        rw [Option.isSome_iff_ne_none, ne_eq, htracks.live j, hj]
        simp
      rw [share_update]
      split_ifs with hji hcond hcond
      · -- The request that updates: it has written the record from now on.
        subst hji
        have hlen : g.files.length = (held (byThread j tr)).length := by
          rw [← h.holding j g hi, List.length_map]
        simp [share, reserve, Held.upd, Held.updDb, hlen]
      · subst hji
        exact absurd ⟨hsome g hi, .inl rfl⟩ hcond
      · cases hj : gs j with
        | none => simp [share, hj]
        | some g' =>
            have hlen : g'.files.length = (held (byThread j tr)).length := by
              rw [← h.holding j g' hj, List.length_map]
            simp only [share, hj, reserve, hlen]
            split_ifs <;> omega
      · cases hj : gs j with
        | none => simp [share, hj]
        | some g' =>
            -- Whoever is left out of the sum has not written the record, so its share is nothing.
            have hnot : r ∉ g'.seen := by
              intro hmem
              rw [h.writing j g' hj] at hmem
              exact hcond ⟨hsome g' hj, .inr hmem⟩
            simp [share, hj, reserve, hnot]
  · rcases h.room r with ⟨n, hn, hwithin⟩
    refine ⟨n, hn, hwithin.keep hi ?_⟩
    simp [reserve, Held.upd, Held.updDb, hr]

theorem room_ask {c : Pool Reply Server Response} (h : Limited tr c.shared.store gs)
    (htracks : Outline.Tracks gs c) (hi : gs i = some g) {e : Env} {op : Call} {r : Reply op}
    (hguard : Roomy tr c (.ask i e op r)) (hpre : g.pre op)
    (hans : c.shared.store.answer e op = some (r, w')) (recordId : String) :
    ∃ n, w'.db.attachmentCount recordId + n ≤ maxAttachmentsPerRecord ∧
      Within (reserve recordId) (Function.update gs i (some (g.upd op r))) n := by
  have hkeep : (∀ a, op ≠ .db (.insertAttachment a)) →
      (∀ recordId, reserve recordId (g.upd op r) ≤ reserve recordId g) →
      ∃ n, w'.db.attachmentCount recordId + n ≤ maxAttachmentsPerRecord ∧
        Within (reserve recordId) (Function.update gs i (some (g.upd op r))) n := by
    intro hop hreserve
    rcases Store.attachments_answer hans with hrows | ⟨a, rfl, -⟩
    · exact h.room_keep hi hrows hreserve recordId
    · exact absurd rfl (hop a)
  cases op with
  | db d =>
      cases d with
      | createRecord id blob now =>
          cases r with
          | error err => exact hkeep (by simp) fun _ => Nat.le_refl _
          | ok _ => exact h.room_create hi hpre hans recordId
      | updateRecord id blob now =>
          -- Only an update that finds the record adds it to those written.
          rcases r with err | _ | _
          · exact hkeep (by simp) fun _ => Nat.le_refl _
          · exact hkeep (by simp) fun _ => Nat.le_refl _
          · exact h.room_update htracks hi hguard hans recordId
      | insertAttachment a =>
          cases r with
          | error err =>
              rw [(Store.answer_db_error hans).1]
              exact h.room_keep hi (.refl _) (fun _ => Nat.le_refl _) recordId
          | ok _ => exact h.room_insert hi hpre hans recordId
      | _ =>
          refine hkeep (by simp) fun recordId => reserve_upd recordId ?_ (le_of_eq ?_)
          · exact g.seen_updDb r (by simp) (by simp)
          · rw [Held.upd, Held.files_updDb _ _ (by simp)]
  | file d =>
      cases d with
      | finalizeUpload id =>
          -- Nothing is written yet, so the new upload is nobody's to insert.
          refine hkeep (by simp) fun recordId => le_of_eq ?_
          have hnone : g.seen = [] := hpre.1
          simp [reserve, Held.upd, hnone]
      | deleteAttachment id =>
          refine hkeep (by simp) fun recordId => reserve_upd recordId rfl ?_
          exact List.eraseP_sublist.length_le
      | _ =>
          refine hkeep (by simp) fun recordId => reserve_upd recordId (by simp [Held.upd]) ?_
          cases r <;> exact Nat.le_refl _
  | _ => exact hkeep (by simp) fun _ => Nat.le_refl _

theorem ask {c : Pool Reply Server Response} (h : Limited tr c.shared.store gs)
    (htracks : Outline.Tracks gs c) (hi : gs i = some g) {e : Env} {op : Call} {r : Reply op}
    (hguard : Roomy tr c (.ask i e op r)) (hpre : g.pre op)
    (hans : c.shared.store.answer e op = some (r, w')) :
    Limited (tr ++ [.ask i e op r]) w' (Function.update gs i (some (g.upd op r))) := by
  refine ⟨h.ledger.ask hi hpre hans, h.holding.set (held_ask hpre (h.holding i g hi)) ?_,
    h.writing.set (written_ask (h.writing i g hi)) ?_, h.room_ask htracks hi hguard hpre hans⟩
  · exact fun j g' hj _ hg' => held_other hg' (by simpa [Event.thread?] using Ne.symm hj)
  · intro j g' hj _ hg'
    rwa [byThread_snoc_other (by simpa [Event.thread?] using Ne.symm hj)]

end Limited

/-! ## Runs -/

def limiting : Outline server (custody False) where
  born := fun _ req => Held.born req
  post := fun _ _ _ => True
  inv := fun tr s gs => Limited tr s.store gs

theorem limiting_valid : limiting.Valid Roomy where
  handler := by
    intro s req
    exact wp_mono (wp_handle s.app req) fun _ _ _ => trivial
  start := by
    intro tr c gs i req _ hunused _ h
    exact h.start req hunused
  ask := by
    intro tr c gs i g e op r s' hguard htracks hi hpre hans h
    exact ⟨g.upd op r, ⟨rfl, False.elim⟩,
      h.ask htracks hi hguard hpre (Server.answer_eq_some hans).1⟩
  finish := by
    intro tr c gs i g req res _ _ _ _ h
    exact h.drop rfl
  abandon := by
    intro tr c gs i g _ _ h
    exact h.drop rfl
  reboot := by
    intro tr c gs b _ h
    exact h.reboot b

/-- No record exceeds the limit, as long as every update finds room for its uploads. -/
theorem attachments_within_limit (app : AppState) {tr : Log} {c : Pool Reply Server Response}
    (h : server.Run Roomy { app, store := .empty } tr c) (recordId : String) :
    c.shared.store.db.attachmentCount recordId ≤ maxAttachmentsPerRecord := by
  have hempty : limiting.inv [] { app, store := .empty } fun _ => none := Limited.empty
  rcases limiting_valid.run hempty h with ⟨gs, hinv, -, -⟩
  exact Limited.bound hinv recordId

/-- Two updates of one record, interleaved, with room for both. -/
theorem attachments_within_limit_run : ∃ tr c,
    server.Run Roomy { app := .plain, store := .empty } tr c ∧
      c.shared.store.db.attachmentCount "r1" = 4 ∧
      ∀ recordId, c.shared.store.db.attachmentCount recordId ≤ maxAttachmentsPerRecord := by
  have hplay : ∃ tr c, server.Run Roomy { app := .plain, store := .empty } tr c ∧
      c.shared.store.db.attachmentCount "r1" = 4 := by
    refine Service.exists_run (.start (.create noHeaders (form "a" "b" [[1, 2, 3]])) ::
      stepsOf 0 [{ uuid := "f1" }, {}, {}, { uuid := "r1" }, {}, {}, {}, {}, {}, {}] ++
      .start (.update "r1" noHeaders (form "c" "d" [[4], [5]])) ::
      stepsOf 1 [{}, { uuid := "f2" }, {}, {}, { uuid := "f3" }, {}, {}, {}, {}, {}, {}] ++
      .start (.update "r1" noHeaders (form "e" "f" [[6]])) ::
      stepsOf 2 [{}, { uuid := "f4" }, {}, {}, {}, {}, {}] ++
      stepsOf 1 [{}, {}, {}] ++ stepsOf 2 [{}, {}, {}]) ?_
    decide
  rcases hplay with ⟨tr, c, hrun, hcount⟩
  exact ⟨tr, c, hrun, hcount, attachments_within_limit _ hrun⟩

/-- One request after the other, without a failing call: a create with as many attachments as a
record may have, and an update with one more. -/
theorem attachments_accumulate :
    ¬ ∀ (app : AppState) (tr : Log) (c : Pool Reply Server Response),
      server.Run Faultless { app, store := .empty } tr c →
        ∀ recordId, c.shared.store.db.attachmentCount recordId ≤ maxAttachmentsPerRecord := by
  intro hall
  have hplay : ∃ tr c, server.Run Faultless { app := .plain, store := .empty } tr c ∧
      c.shared.store.db.attachmentCount "r1" = 21 := by
    refine Service.exists_run
      (.start (.create noHeaders (form "a" "b" (List.replicate 20 [1]))) ::
      stepsOf 0 ((List.range 20).flatMap fun n =>
        [{ uuid := .ofList (List.replicate n 'f') }, {}, {}]) ++
      stepsOf 0 [{ uuid := "r1" }, {}, {}, {}] ++ stepsOf 0 (List.replicate 22 {}) ++
      .start (.update "r1" noHeaders (form "c" "d" [[2]])) ::
      stepsOf 1 [{}, { uuid := "g" }, {}, {}, {}, {}, {}, {}, {}, {}]) ?_
    decide +kernel
  rcases hplay with ⟨tr, c, hrun, hcount⟩
  have hle := hall _ tr c hrun "r1"
  rw [hcount] at hle
  exact absurd hle (by decide)

end Aardbin
