import Aardbin.Effect.Ownership
import Aardbin.PlainVendor
import Aardbin.Saving.Protocol

/-!
# Saving a record: which save is the stored one

The stored text should be that of the last save that was answered with success.  A request that
fails after its write takes the write back, but an update writes back the blob that it read before
its upload, and by then another save may have come in between.  The text is the right one in the
runs where whoever takes back an update is alone with the record since it was read.
-/

namespace Aardbin

open Effect

/-! ## What the history says about saves -/

def stageStep (st : Stage) : Event Reply Env Boot Request Response → Stage
  | .ask _ _ (.db c) r => st.next c r
  | _ => st

/-- How far a request has come, from the events that belong to it. -/
def stage (tr : Log) : Stage :=
  tr.foldl stageStep .fresh

/-- The request that writes the record in this event. -/
def writer? (recordId : String) : Event Reply Env Boot Request Response → Option ℕ
  | .ask i _ op reply => if (op.wrote? reply).map (·.1) = some recordId then some i else none
  | _ => none

/-- The requests that have written the record, in the order of their writes. -/
def writers (recordId : String) (tr : Log) : List ℕ :=
  tr.filterMap (writer? recordId)

/-- Those of them whose write stands. -/
def standing (recordId : String) (tr : Log) : List ℕ :=
  (writers recordId tr).filter fun i => stage (byThread i tr) = .saved recordId

def succeeded? : Event Reply Env Boot Request Response → Option ℕ
  | .finish i resp => if resp.Success then some i else none
  | _ => none

/-- The request was answered with success. -/
def Succeeded (tr : Log) (i : ℕ) : Prop :=
  i ∈ tr.filterMap succeeded?

instance (tr : Log) : DecidablePred (Succeeded tr) := fun i =>
  inferInstanceAs (Decidable (i ∈ _))

def request? (i : ℕ) : Event Reply Env Boot Request Response → Option Request
  | .start j req => if j = i then some req else none
  | _ => none

/-- Title and content that request `i` saves. -/
def textOf (s : AppState) (tr : Log) (i : ℕ) : Option (String × String) :=
  (tr.findSome? (request? i)).bind (Request.text s)

/-- The blob decrypts to the text of the last of these requests. -/
def HoldsLast (s : AppState) (tr : Log) (is : List ℕ) (blob : Bytes) : Prop :=
  ∃ i ∈ is.getLast?, ∃ text ∈ textOf s tr i, s.crypto.decrypt blob = .ok text

instance (s : AppState) (tr : Log) (is : List ℕ) (blob : Bytes) :
    Decidable (HoldsLast s tr is blob) :=
  inferInstanceAs (Decidable (∃ i ∈ is.getLast?, ∃ text ∈ textOf s tr i, _))

/-! ## The condition -/

/-- Every request runs to its answer. -/
def Uninterrupted : Guard Reply Server Env Boot Request Response
  | _, _, .abandon _ => False
  | _, _, .reboot _ => False
  | _, _, _ => True

/-- Request `i` reads the record in this event. -/
def readsRecord (i : ℕ) (recordId : String) : Event Reply Env Boot Request Response → Bool
  | .ask j _ (.db (.getRecord id)) (.ok (some _)) => j = i ∧ id = recordId
  | _ => false

/-- What has happened since request `i` read the record. -/
def sinceRead (i : ℕ) (recordId : String) (tr : Log) : Log :=
  (tr.reverse.takeWhile fun e => !readsRecord i recordId e).reverse

/-- Nobody but request `i` has written the record since that request read it. -/
def Alone (tr : Log) (i : ℕ) (recordId : String) : Prop :=
  ∀ j ∈ writers recordId (sinceRead i recordId tr), j = i

instance (tr : Log) (i : ℕ) (recordId : String) : Decidable (Alone tr i recordId) :=
  inferInstanceAs (Decidable (∀ j ∈ _, j = i))

/-- When request `i` takes back its write of the record, the call does not fail; and an update is
taken back only by a request that is alone with the record. -/
def TakesBack (tr : Log) (i : ℕ) (e : Env) : Call → Prop
  | .db (.updateRecord id _ _) =>
      stage (byThread i tr) = .saved id → e.fault = false ∧ Alone tr i id
  | .db (.deleteRecord id) => stage (byThread i tr) = .saved id → e.fault = false
  | _ => True

instance (tr : Log) (i : ℕ) (e : Env) : (op : Call) → Decidable (TakesBack tr i e op)
  | .db d =>
      match d with
      | .updateRecord _ _ _ => inferInstanceAs (Decidable (_ → _ ∧ _))
      | .deleteRecord _ => inferInstanceAs (Decidable (_ → _))
      | .createRecord _ _ _ | .touchRecord _ _ | .getRecord _ | .listRecords _ _
      | .insertAttachment _ | .getAttachment _ | .listAttachments _ | .attachmentsForRecords _
      | .deleteAttachment _ _ | .allAttachmentIds => .isTrue trivial
  | .file _ | .newV4 | .now | .nonce | .send | .panic => .isTrue trivial

def Separate : Guard Reply Server Env Boot Request Response
  | tr, _, .ask i e op _ => TakesBack tr i e op
  | _, _, .abandon _ => False
  | _, _, .reboot _ => False
  | _, _, _ => True

instance (tr : Log) (c : Pool Reply Server Response) :
    (e : Event Reply Env Boot Request Response) → Decidable (Uninterrupted tr c e)
  | .abandon _ => inferInstanceAs (Decidable False)
  | .reboot _ => inferInstanceAs (Decidable False)
  | .start _ _ | .ask _ _ _ _ | .finish _ _ => inferInstanceAs (Decidable True)

instance (tr : Log) (c : Pool Reply Server Response) :
    (e : Event Reply Env Boot Request Response) → Decidable (Separate tr c e)
  | .ask i e op _ => inferInstanceAs (Decidable (TakesBack tr i e op))
  | .abandon _ => inferInstanceAs (Decidable False)
  | .reboot _ => inferInstanceAs (Decidable False)
  | .start _ _ | .finish _ _ => inferInstanceAs (Decidable True)

/-! ## One more event -/

section Snoc

variable {tr : Log} {e : Event Reply Env Boot Request Response} {i : ℕ} {r : String}

theorem stage_snoc_self (he : e.thread? = some i) :
    stage (byThread i (tr ++ [e])) = stageStep (stage (byThread i tr)) e := by
  rw [byThread_snoc_self he, stage, List.foldl_append]
  rfl

theorem stage_snoc_other {j : ℕ} (he : e.thread? = some i) (hj : j ≠ i) :
    stage (byThread j (tr ++ [e])) = stage (byThread j tr) := by
  rw [byThread_snoc_other]
  rw [he]
  simpa using Ne.symm hj

theorem writers_snoc : writers r (tr ++ [e]) = writers r tr ++ (writer? r e).toList := by
  rw [writers, List.filterMap_append]
  cases h : writer? r e <;> simp [writers, h]

theorem thread_of_writer (h : writer? r e = some i) : e.thread? = some i := by
  unfold writer? at h
  split at h
  · split_ifs at h
    exact h
  · cases h

/-- The writers but the request of the last event were writers before it. -/
theorem mem_writers_other {j : ℕ} (hj : j ∈ writers r (tr ++ [e])) (he : e.thread? = some i)
    (hji : j ≠ i) : j ∈ writers r tr := by
  rw [writers_snoc, List.mem_append, Option.mem_toList] at hj
  refine hj.resolve_right fun hw => hji ?_
  have hij := thread_of_writer hw
  rw [he, Option.some.injEq] at hij
  exact hij.symm

/-- An event that leaves it open whether its request's write of the record stands. -/
theorem standing_snoc_same (he : e.thread? = some i) (hw : writer? r e = none)
    (hstage : stage (byThread i (tr ++ [e])) = .saved r ↔ stage (byThread i tr) = .saved r) :
    standing r (tr ++ [e]) = standing r tr := by
  unfold standing
  rw [writers_snoc, hw, Option.toList_none, List.append_nil]
  refine List.filter_congr fun j _ => ?_
  by_cases hj : j = i
  · subst hj
    simp [hstage]
  · rw [stage_snoc_other he hj]

/-- A first write is the last one that stands. -/
theorem standing_snoc_write (he : e.thread? = some i) (hw : writer? r e = some i)
    (hfresh : i ∉ writers r tr) (hstage : stage (byThread i (tr ++ [e])) = .saved r) :
    standing r (tr ++ [e]) = standing r tr ++ [i] := by
  unfold standing
  rw [writers_snoc, hw, Option.toList_some, List.filter_append]
  congr 1
  · -- The writer is not among the earlier ones, whose stages stay.
    refine List.filter_congr fun j hj => ?_
    rw [stage_snoc_other he]
    rintro rfl
    exact hfresh hj
  · simp [hstage]

/-- A write that is taken back leaves those of the others. -/
theorem standing_snoc_back (he : e.thread? = some i)
    (hstage : stage (byThread i (tr ++ [e])) ≠ .saved r) :
    standing r (tr ++ [e]) = (standing r tr).filter fun j => j ≠ i := by
  unfold standing
  -- Whether or not the event writes the record, its request's write does not stand after it.
  have hwriter : (writer? r e).toList.filter
      (fun j => decide (stage (byThread j (tr ++ [e])) = .saved r)) = [] := by
    refine List.filter_eq_nil_iff.2 fun j hj => ?_
    have hji := thread_of_writer (Option.mem_toList.1 hj)
    rw [he, Option.some.injEq] at hji
    subst hji
    simpa using hstage
  rw [writers_snoc, List.filter_append, hwriter, List.append_nil, List.filter_filter]
  refine List.filter_congr fun j _ => ?_
  by_cases hj : j = i
  · subst hj
    simp [hstage]
  · simp [stage_snoc_other he hj, hj]

/-- An event of a request changes nothing for the others. -/
theorem standing_snoc_self (he : e.thread? = some i) :
    (standing r (tr ++ [e])).filter (fun j => j ≠ i) = (standing r tr).filter fun j => j ≠ i := by
  unfold standing
  -- A new writer is the request of the event.
  have hwriter : ((writer? r e).toList.filter
      fun j => decide (stage (byThread j (tr ++ [e])) = .saved r)).filter (fun j => j ≠ i) = [] := by
    refine List.filter_eq_nil_iff.2 fun j hj => ?_
    have hji := thread_of_writer (Option.mem_toList.1 (List.mem_of_mem_filter hj))
    rw [he, Option.some.injEq] at hji
    simp [hji]
  rw [writers_snoc, List.filter_append, List.filter_append, hwriter, List.append_nil,
    List.filter_filter, List.filter_filter]
  refine List.filter_congr fun j _ => ?_
  by_cases hj : j = i
  · simp [hj]
  · simp [stage_snoc_other he hj]

theorem thread_of_reads (h : readsRecord i r e = true) : e.thread? = some i := by
  unfold readsRecord at h
  split at h
  · rw [(of_decide_eq_true h).1]
    rfl
  · cases h

theorem reads_eq_false {env : Env} {op : Call} {reply : Reply op}
    (h : ∀ hop : op = .db (.getRecord r), ∀ row, hop ▸ reply ≠ .ok (some row)) :
    readsRecord i r (.ask i env op reply) = false := by
  unfold readsRecord
  split
  · rename_i heq
    cases heq
    refine decide_eq_false ?_
    rintro ⟨-, rfl⟩
    exact h rfl _ rfl
  · rfl

theorem sinceRead_snoc : sinceRead i r (tr ++ [e]) =
    if readsRecord i r e = true then [] else sinceRead i r tr ++ [e] := by
  unfold sinceRead
  rw [List.reverse_append, List.reverse_singleton, List.singleton_append, List.takeWhile_cons]
  cases readsRecord i r e <;> simp

/-- A request that is alone with the record has just read it, or was so before. -/
theorem Alone.of_snoc (h : Alone (tr ++ [e]) i r) (hreads : readsRecord i r e = false) :
    Alone tr i r ∧ ∀ j, writer? r e = some j → j = i := by
  unfold Alone at h
  rw [sinceRead_snoc, hreads, if_neg Bool.false_ne_true, writers_snoc] at h
  refine ⟨fun j hj => h j (List.mem_append_left _ hj), fun j hj => ?_⟩
  exact h j (List.mem_append_right _ (Option.mem_toList.2 hj))

theorem succeeded_snoc : Succeeded (tr ++ [e]) i ↔ Succeeded tr i ∨ succeeded? e = some i := by
  unfold Succeeded
  rw [List.filterMap_append, List.mem_append]
  cases h : succeeded? e <;> simp [h, eq_comm]

theorem textOf_snoc {s : AppState} (h : request? i e = none) :
    textOf s (tr ++ [e]) i = textOf s tr i := by
  unfold textOf
  rw [List.findSome?_append]
  simp [h]

theorem HoldsLast.snoc {s : AppState} {is : List ℕ} {blob : Bytes} (h : HoldsLast s tr is blob) :
    HoldsLast s (tr ++ [e]) is blob := by
  rcases h with ⟨j, hj, text, htext, hdec⟩
  refine ⟨j, hj, text, ?_, hdec⟩
  unfold textOf at htext ⊢
  rw [List.findSome?_append]
  cases hreq : tr.findSome? (request? j) with
  | none =>
      rw [hreq] at htext
      cases htext
  | some req => rwa [hreq] at htext

theorem stageStep_ask {g : Saving} {env : Env} {op : Call} (reply : Reply op) :
    stageStep g.stage (.ask i env op reply) = (g.upd op reply).stage := by
  cases op with
  | db c =>
      simp only [stageStep, Saving.upd, Saving.updDb]
      split
      · cases g.stage <;> rfl
      · rfl
  | _ => rfl

end Snoc

/-! ## The invariant -/

structure Latest (tr : Log) (s : Server) (gs : ℕ → Option Saving) : Prop where
  app : Each (fun _ g => g.app = s.app) gs
  staged : Each (fun i g => stage (byThread i tr) = g.stage) gs
  texts : Each (fun i g => textOf s.app tr i = g.text) gs
  wrote : ∀ r, ∀ i ∈ writers r tr,
    stage (byThread i tr) = .saved r ∨ stage (byThread i tr) = .takenBack
  answered : ∀ i, Succeeded tr i → gs i = none
  settled : ∀ r, ∀ i ∈ writers r tr, gs i = none →
    (Succeeded tr i ↔ stage (byThread i tr) = .saved r)
  rows : ∀ row ∈ s.store.db.records, HoldsLast s.app tr (standing row.id tr) row.blob
  /-- what a request has read is still the text without its own write, while it is alone -/
  read : Each (fun i g => ∀ id old, g.read = some (id, old) → Alone tr i id →
    ∀ row ∈ s.store.db.records, row.id = id →
      HoldsLast s.app tr ((standing id tr).filter fun j => j ≠ i) old) gs

theorem thread_of_succeeded {e : Event Reply Env Boot Request Response} {i : ℕ}
    (h : succeeded? e = some i) : e.thread? = some i := by
  unfold succeeded? at h
  split at h
  · split_ifs at h
    exact h
  · cases h

namespace Latest

variable {tr : Log} {s s' : Server} {gs : ℕ → Option Saving} {i : ℕ} {g : Saving}

theorem empty (app : AppState) : Latest [] { app, store := .empty } fun _ => none := by
  refine ⟨.idle, .idle, .idle, ?_, fun _ _ => rfl, ?_, ?_, .idle⟩
  · intro r i hi
    cases hi
  · intro r i hi
    cases hi
  · intro row hrow
    cases hrow

/-- Starting or ending a request concerns no record. -/
theorem of_idle (tr : Log) (i : ℕ) (e : Event Reply Env Boot Request Response)
    (he : e.thread? = some i) (hstep : ∀ st, stageStep st e = st) (hwriter : ∀ r, writer? r e = none) :
    (∀ j, stage (byThread j (tr ++ [e])) = stage (byThread j tr)) ∧
      (∀ r, writers r (tr ++ [e]) = writers r tr) ∧
      ∀ r, standing r (tr ++ [e]) = standing r tr := by
  have hstage : ∀ j, stage (byThread j (tr ++ [e])) = stage (byThread j tr) := by
    intro j
    by_cases hj : j = i
    · subst hj
      rw [stage_snoc_self he, hstep]
    · exact stage_snoc_other he hj
  refine ⟨hstage, fun r => ?_, fun r => ?_⟩
  · rw [writers_snoc, hwriter, Option.toList_none, List.append_nil]
  · exact standing_snoc_same he (hwriter r) (by rw [hstage])

/-- Events that concern no record keep what the others have read. -/
theorem read_idle (h : Latest tr s gs) {e : Event Reply Env Boot Request Response}
    (hreads : ∀ j r, readsRecord j r e = false)
    (hstanding : ∀ r, standing r (tr ++ [e]) = standing r tr) {j : ℕ} (hj : gs j = some g)
    (id : String) (old : Bytes) (hread : g.read = some (id, old)) (halone : Alone (tr ++ [e]) j id) :
    ∀ row ∈ s.store.db.records, row.id = id →
      HoldsLast s.app (tr ++ [e]) ((standing id (tr ++ [e])).filter fun k => k ≠ j) old := by
  intro row hrow hid
  rw [hstanding]
  exact (h.read j g hj id old hread (halone.of_snoc (hreads j id)).1 row hrow hid).snoc

theorem start (h : Latest tr s gs) (req : Request) (hunused : Outline.Unused i tr) :
    Latest (tr ++ [.start i req]) s (Function.update gs i (some (Saving.born s.app req))) := by
  rcases of_idle tr i (.start i req) rfl (fun _ => rfl) fun _ => rfl with
    ⟨hstage, hwriters, hstanding⟩
  refine ⟨h.app.set rfl fun _ _ _ _ hj => hj, h.staged.set ?_ ?_, h.texts.set ?_ ?_, ?_, ?_, ?_, ?_,
    h.read.set (fun id old hread => by cases hread) ?_⟩
  · rw [hstage, hunused.byThread]
    rfl
  · intro j g' _ _ hj
    rwa [hstage]
  · -- The number is new, so the log has no earlier request under it.
    have hnone : tr.findSome? (request? i) = none := by
      refine List.findSome?_eq_none_iff.2 fun e he => ?_
      unfold request?
      split
      · rename_i j req'
        have hne : j ≠ i := by simpa [Event.thread?] using hunused _ he
        simp [hne]
      · rfl
    simp [textOf, List.findSome?_append, hnone, request?, Saving.born]
  · intro j g' hj _ htext
    rwa [textOf_snoc (by simp [request?, Ne.symm hj])]
  · intro r j hj
    rw [hstage]
    exact h.wrote r j (hwriters r ▸ hj)
  · intro j hj
    have hsucc : Succeeded tr j := by simpa [succeeded_snoc, succeeded?] using hj
    have hji : j ≠ i := by
      rintro rfl
      rcases List.mem_filterMap.1 hsucc with ⟨e, he, hsome⟩
      exact hunused e he (thread_of_succeeded hsome)
    rw [Function.update_of_ne hji]
    exact h.answered j hsucc
  · intro r j hj hnone
    have hji : j ≠ i := by
      rintro rfl
      simp at hnone
    rw [Function.update_of_ne hji] at hnone
    rw [hstage, succeeded_snoc]
    simpa [succeeded?] using h.settled r j (hwriters r ▸ hj) hnone
  · intro row hrow
    rw [hstanding]
    exact (h.rows row hrow).snoc
  · intro j g' _ hj _
    exact h.read_idle (fun _ _ => rfl) hstanding hj

theorem finish (h : Latest tr s gs) (hi : gs i = some g) {resp : Response}
    (hpost : SavePost resp g) :
    Latest (tr ++ [.finish i resp]) s (Function.update gs i none) := by
  rcases of_idle tr i (.finish i resp) rfl (fun _ => rfl) fun _ => rfl with
    ⟨hstage, hwriters, hstanding⟩
  have hsucc : ∀ j, Succeeded (tr ++ [.finish i resp]) j ↔
      Succeeded tr j ∨ (resp.Success ∧ i = j) := by
    intro j
    rw [succeeded_snoc]
    by_cases hresp : resp.Success <;> simp [succeeded?, hresp]
  refine ⟨h.app.drop fun _ _ _ _ hj => hj, h.staged.drop ?_, h.texts.drop ?_, ?_, ?_, ?_, ?_,
    h.read.drop fun j g' _ hj _ => h.read_idle (fun _ _ => rfl) hstanding hj⟩
  · intro j g' _ _ hj
    rwa [hstage]
  · intro j g' _ _ htext
    rwa [textOf_snoc rfl]
  · intro r j hj
    rw [hstage]
    exact h.wrote r j (hwriters r ▸ hj)
  · intro j hj
    by_cases hji : j = i
    · subst hji
      simp
    · rw [Function.update_of_ne hji]
      refine h.answered j (((hsucc j).1 hj).resolve_right ?_)
      rintro ⟨-, rfl⟩
      exact hji rfl
  · intro r j hj hnone
    rw [hwriters] at hj
    rw [hstage, hsucc]
    by_cases hji : j = i
    · subst hji
      -- The answer tells whether the write stands.
      have hnot : ¬ Succeeded tr j := fun hs => by simp [h.answered j hs] at hi
      simp only [hnot, and_true, false_or]
      have hstaged := h.staged j g hi
      unfold SavePost at hpost
      rcases h.wrote r j hj with hst | hst
      · rw [← hstaged, hst] at hpost
        simpa [hst] using hpost
      · rw [← hstaged, hst] at hpost
        simpa [hst] using hpost
    · rw [Function.update_of_ne hji] at hnone
      have hne : ¬ (resp.Success ∧ i = j) := fun hij => hji hij.2.symm
      simpa [hne] using h.settled r j hj hnone
  · intro row hrow
    rw [hstanding]
    exact (h.rows row hrow).snoc

theorem stage_ask (h : Latest tr s gs) (hi : gs i = some g) {env : Env} {op : Call}
    (reply : Reply op) :
    stage (byThread i (tr ++ [.ask i env op reply])) = (g.upd op reply).stage := by
  rw [stage_snoc_self rfl, h.staged i g hi, stageStep_ask]

theorem wrote_ask (h : Latest tr s gs) (hi : gs i = some g) {env : Env} {op : Call}
    {reply : Reply op} (hpre : g.pre op) (r : String) :
    ∀ j ∈ writers r (tr ++ [.ask i env op reply]),
      stage (byThread j (tr ++ [.ask i env op reply])) = .saved r ∨
        stage (byThread j (tr ++ [.ask i env op reply])) = .takenBack := by
  intro j hj
  by_cases hji : j = i
  · subst hji
    rw [h.stage_ask hi]
    have hold := h.wrote r j
    rw [h.staged j g hi] at hold
    rw [writers_snoc, List.mem_append, Option.mem_toList] at hj
    rcases Saving.save_cases reply hpre with ⟨hwrote, hstage⟩ |
      ⟨id, blob, hwrote, -, hfresh, hstage⟩ | ⟨id, -, -, hstage⟩
    · rw [hstage]
      exact hold (hj.resolve_right (by simp [writer?, hwrote]))
    · refine .inl ?_
      -- A request that has saved nothing yet is not among the writers.
      rcases hj with hj | hj
      · simp [hfresh] at hold
        exact absurd hj hold
      · have hid : id = r := by simpa [writer?, hwrote] using hj
        rw [hstage, hid]
    · exact .inr hstage
  · rw [stage_snoc_other rfl hji]
    exact h.wrote r j (mem_writers_other hj rfl hji)

/-- A request that takes back its write of a record writes it again, or leaves no such record. -/
theorem wrote_of_back (h : Latest tr s gs) (hi : gs i = some g) {env : Env} {op : Call}
    {reply : Reply op} (hans : s.answer env op = some (reply, s')) (hguard : TakesBack tr i env op)
    {id : String} (hop : (∃ blob now, op = .db (.updateRecord id blob now)) ∨
      op = .db (.deleteRecord id)) (hsaved : g.stage = .saved id) {row' : RecordRow}
    (hrow' : row' ∈ s'.store.db.records) (hid : row'.id = id) :
    Alone tr i id ∧ ∃ blob now, op = .db (.updateRecord id blob now) ∧
      op.wrote? reply = some (id, blob) := by
  have hstore := (Server.answer_eq_some hans).1
  have hstage : stage (byThread i tr) = .saved id := (h.staged i g hi).trans hsaved
  rcases hop with ⟨blob, now, rfl⟩ | rfl
  · rcases hguard hstage with ⟨hfault, halone⟩
    rcases Store.answer_db hstore with ⟨err, -, -, hfailed⟩ | ⟨v, db, -, hexec, rfl, hdb⟩
    · simp [hfault, Db.exec] at hfailed
    · refine ⟨halone, blob, now, rfl, ?_⟩
      simp only [Db.exec, Db.updateRecord, Except.ok.injEq, Prod.mk.injEq] at hexec
      have hmem : id ∈ s.store.db.recordIds := by
        rw [← Db.recordIds_modifyRecord s.store.db id (fun r => { r with blob, updatedAt := now })
          fun _ => rfl, hexec.2, ← hid]
        rw [hdb] at hrow'
        exact List.mem_map_of_mem hrow'
      rw [← hexec.1]
      simp [Call.wrote?, DbCall.wrote?, hmem]
  · rcases Store.answer_db hstore with ⟨err, -, -, hfailed⟩ | ⟨v, db, -, hexec, -, hdb⟩
    · simp [hguard hstage, Db.exec] at hfailed
    · -- The record is gone.
      simp only [Db.exec, Db.deleteRecord, Except.ok.injEq, Prod.mk.injEq] at hexec
      rw [hdb, ← hexec.2] at hrow'
      have hne := (List.mem_filter.1 hrow').2
      simp [hid] at hne

/-- Whose writes of a record stand changes only with a write of the record, or with its end. -/
theorem standing_unwritten (h : Latest tr s gs) (hi : gs i = some g) {env : Env} {op : Call}
    {reply : Reply op} (hpre : g.pre op) (hans : s.answer env op = some (reply, s'))
    (hguard : TakesBack tr i env op) {row' : RecordRow} (hrow' : row' ∈ s'.store.db.records)
    (hwrote : ∀ b, op.wrote? reply ≠ some (row'.id, b)) :
    standing row'.id (tr ++ [.ask i env op reply]) = standing row'.id tr := by
  refine standing_snoc_same (i := i) rfl ?_ ?_
  · cases hw : op.wrote? reply with
    | none => simp [writer?, hw]
    | some x =>
        have hx : x.1 ≠ row'.id := fun hx => hwrote x.2 (by rw [hw, ← hx])
        simp [writer?, hw, hx]
  · rw [h.stage_ask hi, h.staged i g hi]
    rcases Saving.save_cases reply hpre with ⟨-, hstage⟩ |
      ⟨id, blob, hw, -, hfresh, hsaved⟩ | ⟨id, hop, hsaved, hback⟩
    · rw [hstage]
    · have hid : id ≠ row'.id := fun hid => hwrote blob (hid ▸ hw)
      simp [hsaved, hfresh, hid]
    · have hid : id ≠ row'.id := by
        intro hid
        rcases h.wrote_of_back hi hans hguard hop hsaved hrow' hid.symm with ⟨-, blob, -, -, hw⟩
        exact hwrote blob (hid ▸ hw)
      simp [hback, hsaved, hid]

/-- A first write holds the text of its own form. -/
theorem row_write (h : Latest tr s gs) (hcrypto : s.app.crypto.Undoes) (hi : gs i = some g)
    {env : Env} {op : Call} {reply : Reply op} (happ : s'.app = s.app) {id : String} {blob : Bytes}
    (hwrote : op.wrote? reply = some (id, blob)) (henc : g.Encrypts blob)
    (hfresh : g.stage = .fresh) (hsaved : (g.upd op reply).stage = .saved id) :
    HoldsLast s'.app (tr ++ [.ask i env op reply]) (standing id (tr ++ [.ask i env op reply]))
      blob := by
  have hwriter : writer? id (.ask i env op reply) = some i := by
    simp [writer?, hwrote]
  have hnew : i ∉ writers id tr := by
    intro hmem
    have hst := h.wrote id i hmem
    simp [h.staged i g hi, hfresh] at hst
  rw [standing_snoc_write (e := .ask i env op reply) rfl hwriter hnew
    (by rw [h.stage_ask hi, hsaved])]
  rcases henc with ⟨text, nonce, htext, rfl⟩
  refine ⟨i, by simp, text, ?_, ?_⟩
  · rw [happ, textOf_snoc rfl, h.texts i g hi, htext]
    rfl
  · rw [happ, h.app i g hi, hcrypto]

/-- A write that is taken back leaves the text that its request has read. -/
theorem row_back (h : Latest tr s gs) (hi : gs i = some g) {env : Env} {op : Call}
    {reply : Reply op} (hpre : g.pre op) (hans : s.answer env op = some (reply, s'))
    (hguard : TakesBack tr i env op) {id : String}
    (hop : (∃ blob now, op = .db (.updateRecord id blob now)) ∨ op = .db (.deleteRecord id))
    (hsaved : g.stage = .saved id) (hback : (g.upd op reply).stage = .takenBack)
    {row' : RecordRow} (hrow' : row' ∈ s'.store.db.records)
    (hwrote : op.wrote? reply = some (row'.id, row'.blob)) :
    HoldsLast s'.app (tr ++ [.ask i env op reply])
      (standing row'.id (tr ++ [.ask i env op reply])) row'.blob := by
  rcases Server.answer_eq_some hans with ⟨hstore, happ⟩
  -- Only an update writes, and it writes the blob that was read.
  obtain rfl : id = row'.id := by
    rcases hop with ⟨blob, now, rfl⟩ | rfl
    · rcases reply with err | _ | _
      · cases hwrote
      · cases hwrote
      · exact congrArg Prod.fst (Option.some.inj hwrote)
    · cases reply <;> cases hwrote
  rcases h.wrote_of_back hi hans hguard hop hsaved hrow' rfl with ⟨halone, blob, now, rfl, hw⟩
  obtain rfl : blob = row'.blob := congrArg Prod.snd (Option.some.inj (hw.symm.trans hwrote))
  rcases hpre with ⟨old, hread, -, ⟨hfresh, -⟩ | ⟨-, rfl⟩⟩
  · rw [hsaved] at hfresh
    cases hfresh
  rw [standing_snoc_back (i := i) rfl (by rw [h.stage_ask hi, hback]; simp), happ]
  have hmem : row'.id ∈ s.store.db.recordIds := by
    rcases Store.recordIds_answer hstore row'.id (List.mem_map_of_mem hrow') with hold | ⟨b, n, hop⟩
    · exact hold
    · cases hop
  rcases List.mem_map.1 hmem with ⟨row, hrow, hid⟩
  exact (h.read i g hi row'.id row'.blob hread halone row hrow hid).snoc

theorem rows_ask (h : Latest tr s gs) (hcrypto : s.app.crypto.Undoes) (hi : gs i = some g)
    {env : Env} {op : Call} {reply : Reply op} (hpre : g.pre op)
    (hans : s.answer env op = some (reply, s')) (hguard : TakesBack tr i env op) :
    ∀ row' ∈ s'.store.db.records, HoldsLast s'.app (tr ++ [.ask i env op reply])
      (standing row'.id (tr ++ [.ask i env op reply])) row'.blob := by
  intro row' hrow'
  rcases Server.answer_eq_some hans with ⟨hstore, happ⟩
  rcases Store.blobs_answer hstore row' hrow' with hwrote | ⟨row, hrow, hid, hblob, hwrote⟩
  · rcases Saving.save_cases reply hpre with ⟨hnone, -⟩ |
      ⟨id, blob, hw, henc, hfresh, hsaved⟩ | ⟨id, hop, hsaved, hback⟩
    · rw [hnone] at hwrote
      cases hwrote
    · obtain ⟨rfl, rfl⟩ := Prod.mk.inj (Option.some.inj (hw.symm.trans hwrote))
      exact h.row_write hcrypto hi happ hw henc hfresh hsaved
    · exact h.row_back hi hpre hans hguard hop hsaved hback hrow' hwrote
  · rw [happ, h.standing_unwritten hi hpre hans hguard hrow' hwrote, ← hid, ← hblob]
    exact (h.rows row hrow).snoc

/-- A request that reads a record reads the text of the last write that stands. -/
theorem read_row (h : Latest tr s gs) (hi : gs i = some g) {id : String} {row : RecordRow}
    (hfresh : g.stage = .fresh) (hrow : s.store.db.getRecord id = some row) :
    HoldsLast s.app tr ((standing id tr).filter fun j => j ≠ i) row.blob := by
  have hid : row.id = id := by simpa using List.find?_some hrow
  have hself : ∀ j ∈ standing id tr, decide (j ≠ i) = true := by
    intro j hj
    refine decide_eq_true ?_
    rintro rfl
    have hst := of_decide_eq_true (List.mem_filter.1 hj).2
    rw [h.staged j g hi, hfresh] at hst
    cases hst
  rw [List.filter_eq_self.2 hself, ← hid]
  exact h.rows row (List.mem_of_find?_eq_some hrow)

theorem read_ask (h : Latest tr s gs) (hi : gs i = some g) {env : Env} {op : Call}
    {reply : Reply op} (hpre : g.pre op) (hans : s.answer env op = some (reply, s'))
    (hguard : TakesBack tr i env op) :
    Each (fun j g => ∀ id old, g.read = some (id, old) →
      Alone (tr ++ [.ask i env op reply]) j id → ∀ row' ∈ s'.store.db.records, row'.id = id →
        HoldsLast s'.app (tr ++ [.ask i env op reply])
          ((standing id (tr ++ [.ask i env op reply])).filter fun k => k ≠ j) old)
      (Function.update gs i (some (g.upd op reply))) := by
  rcases Server.answer_eq_some hans with ⟨hstore, happ⟩
  refine h.read.set ?_ ?_
  · -- The request of this event: its own writes do not count.
    intro id old hread halone row' hrow' hid
    rw [standing_snoc_self (i := i) rfl, happ]
    refine HoldsLast.snoc ?_
    rcases Saving.read_upd hread with ⟨hold, hnot⟩ | ⟨rfl, row, hrow, rfl⟩
    · -- The record is not new: a request that has read one creates none.
      have hmem : id ∈ s.store.db.recordIds := by
        rcases Store.recordIds_answer hstore id (hid ▸ List.mem_map_of_mem hrow') with
          hmem | ⟨blob, now, rfl⟩
        · exact hmem
        · rw [hpre.2.1] at hold
          cases hold
      rcases List.mem_map.1 hmem with ⟨row, hrow, hrid⟩
      exact h.read i g hi id old hold (halone.of_snoc (reads_eq_false hnot)).1 row hrow hrid
    · rcases Store.answer_db hstore with ⟨err, hreply, -⟩ | ⟨v, db, -, hexec, hreply, -⟩
      · rw [hreply] at hrow
        cases hrow
      · rw [hreply] at hrow
        simp only [Except.ok.injEq] at hrow
        simp only [Db.exec, Except.ok.injEq, Prod.mk.injEq] at hexec
        exact h.read_row hi hpre (hexec.1.trans hrow)
  · intro j g' hji hj hold id old hread halone row' hrow' hid
    have hreads : readsRecord j id (.ask i env op reply) = false := by
      refine Bool.eq_false_iff.2 fun hreads => hji ?_
      exact (Option.some.inj (thread_of_reads hreads)).symm
    rcases halone.of_snoc hreads with ⟨halone, hwriter⟩
    -- The request of this event does not write the record, since request `j` is alone with it.
    have hunwritten : ∀ b, op.wrote? reply ≠ some (row'.id, b) := by
      intro b hwrote
      refine hji (hwriter i ?_).symm
      simp [writer?, hwrote, hid]
    rcases Store.blobs_answer hstore row' hrow' with hwrote | ⟨row, hrow, hrid, -, -⟩
    · exact absurd hwrote (hunwritten row'.blob)
    · rw [← hid, h.standing_unwritten hi hpre hans hguard hrow' hunwritten, happ, hid]
      exact (hold id old hread halone row hrow (hrid.trans hid)).snoc

theorem ask (h : Latest tr s gs) (hcrypto : s.app.crypto.Undoes) (hi : gs i = some g) {env : Env}
    {op : Call} {reply : Reply op} (hguard : TakesBack tr i env op) (hpre : g.pre op)
    (hans : s.answer env op = some (reply, s')) :
    Latest (tr ++ [.ask i env op reply]) s' (Function.update gs i (some (g.upd op reply))) := by
  have happ := (Server.answer_eq_some hans).2
  have hsucc : ∀ j, Succeeded (tr ++ [.ask i env op reply]) j ↔ Succeeded tr j := by
    intro j
    simp [succeeded_snoc, succeeded?]
  refine ⟨h.app.set ?_ ?_, h.staged.set (h.stage_ask hi reply) ?_, h.texts.set ?_ ?_,
    h.wrote_ask hi hpre, ?_, ?_, ?_, h.read_ask hi hpre hans hguard⟩
  · rw [Saving.app_upd, h.app i g hi, happ]
  · intro j g' _ _ hj
    rw [hj, happ]
  · intro j g' hj _ hst
    rwa [stage_snoc_other rfl hj]
  · rw [Saving.text_upd, happ, textOf_snoc rfl, h.texts i g hi]
  · intro j g' _ _ htext
    rwa [happ, textOf_snoc rfl]
  · -- A request that was answered asks nothing more, so it is not this one.
    intro j hj
    have hji : j ≠ i := by
      rintro rfl
      simp [h.answered j ((hsucc j).1 hj)] at hi
    rw [Function.update_of_ne hji]
    exact h.answered j ((hsucc j).1 hj)
  · intro r j hj hnone
    have hji : j ≠ i := by
      rintro rfl
      simp at hnone
    rw [Function.update_of_ne hji] at hnone
    rw [hsucc, stage_snoc_other rfl hji]
    exact h.settled r j (mem_writers_other hj rfl hji) hnone
  · exact h.rows_ask hcrypto hi hpre hans hguard

end Latest

/-! ## Runs -/

def latest (app : AppState) : Outline server saving where
  born := fun s req => Saving.born s.app req
  post := fun _ => SavePost
  inv := fun tr s gs => s.app = app ∧ Latest tr s gs

theorem latest_valid {app : AppState} (hcrypto : app.crypto.Undoes) :
    (latest app).Valid Separate where
  handler := fun s req => wp_saving_handle s.app req
  start := by
    rintro tr c gs i req - hunused - ⟨happ, h⟩
    exact ⟨happ, h.start req hunused⟩
  ask := by
    rintro tr c gs i g e op r s' hguard - hi hpre hans ⟨rfl, h⟩
    exact ⟨g.upd op r, rfl, (Server.answer_eq_some hans).2, h.ask hcrypto hi hguard hpre hans⟩
  finish := by
    rintro tr c gs i g req res - - hi hpost ⟨happ, h⟩
    exact ⟨happ, h.finish hi hpost⟩
  abandon := by
    rintro tr c gs i g hguard
    exact hguard.elim
  reboot := by
    rintro tr c gs b hguard
    exact hguard.elim

/-- Last successful save wins: in every quiet state, the stored text of a record is that of the
last request that was answered with success, as long as a request that takes back an update was
alone with the record since it read it. -/
theorem last_save_wins {app : AppState} (hcrypto : app.crypto.Undoes) {tr : Log}
    {c : Pool Reply Server Response} (h : server.Run Separate { app, store := .empty } tr c)
    (hquiet : c.Quiet) : ∀ row ∈ c.shared.store.db.records,
      HoldsLast app tr ((writers row.id tr).filter (Succeeded tr)) row.blob := by
  rcases (latest_valid hcrypto).run ⟨rfl, Latest.empty app⟩ h with ⟨gs, ⟨rfl, hinv⟩, hfollow, -⟩
  intro row hrow
  -- With nobody in flight, a write stands exactly when its request has succeeded.
  have hsame : (writers row.id tr).filter (Succeeded tr) = standing row.id tr := by
    refine List.filter_congr fun i hi => ?_
    have hnone : gs i = none := (hfollow i).none_iff.1 (hquiet i)
    simp [hinv.settled row.id i hi hnone]
  rw [hsame]
  exact hinv.rows row hrow

/-- One update fails and takes its write back, while another one, which succeeds, is on its way. -/
theorem last_save_wins_run : ∃ tr c, server.Run Separate { app := .plain, store := .empty } tr c ∧
    writers "r1" tr = [0, 1, 1, 2] ∧ Succeeded tr 0 ∧ ¬ Succeeded tr 1 ∧ Succeeded tr 2 ∧
      ∀ row ∈ c.shared.store.db.records,
        HoldsLast .plain tr ((writers row.id tr).filter (Succeeded tr)) row.blob := by
  have hplay : ∃ tr c, server.Run Separate { app := .plain, store := .empty } tr c ∧
      c.quietBelow = true ∧ writers "r1" tr = [0, 1, 1, 2] ∧ Succeeded tr 0 ∧
        ¬ Succeeded tr 1 ∧ Succeeded tr 2 := by
    refine Service.exists_run (.start (.create noHeaders (form "a" "b" [])) ::
      stepsOf 0 [{ uuid := "r1" }, {}, {}, {}, {}, {}] ++
      .start (.update "r1" noHeaders (form "c" "d" [[1]])) ::
      stepsOf 1 [{}, { uuid := "f1" }, {}, {}, {}, {}, {}] ++
      .start (.update "r1" noHeaders (form "e" "f" [])) :: stepsOf 2 [{}, {}, {}] ++
      stepsOf 1 [{ fault := true }, {}, {}, {}] ++ stepsOf 2 [{}, {}, {}]) ?_
    decide +kernel
  rcases hplay with ⟨tr, c, hrun, hquiet, hwriters, h₀, h₁, h₂⟩
  have hcrypto : AppState.plain.crypto.Undoes := plain_undoes _
  exact ⟨tr, c, hrun, hwriters, h₀, h₁, h₂,
    last_save_wins hcrypto hrun (Service.Run.quiet hrun hquiet)⟩

/-- A stale rollback: request 1 reads the record, request 2 saves it with success, request 1 writes,
its upload cannot be inserted, and it writes back the text from before request 2. -/
theorem rollback_reverts_save :
    ¬ ∀ (app : AppState) (tr : Log) (c : Pool Reply Server Response), app.crypto.Undoes →
      server.Run Uninterrupted { app, store := .empty } tr c → c.Quiet →
        ∀ row ∈ c.shared.store.db.records,
          HoldsLast app tr ((writers row.id tr).filter (Succeeded tr)) row.blob := by
  intro hall
  have hplay : ∃ tr c, server.Run Uninterrupted { app := .plain, store := .empty } tr c ∧
      c.quietBelow = true ∧ ¬ ∀ row ∈ c.shared.store.db.records,
        HoldsLast .plain tr ((writers row.id tr).filter (Succeeded tr)) row.blob := by
    refine Service.exists_run (.start (.create noHeaders (form "a" "b" [])) ::
      stepsOf 0 [{ uuid := "r1" }, {}, {}, {}, {}, {}] ++
      .start (.update "r1" noHeaders (form "c" "d" [[1]])) ::
      stepsOf 1 [{}, { uuid := "f1" }, {}, {}, {}, {}] ++
      .start (.update "r1" noHeaders (form "e" "f" [])) :: stepsOf 2 [{}, {}, {}, {}, {}, {}] ++
      stepsOf 1 [{}, { fault := true }, {}, {}, {}]) ?_
    decide +kernel
  rcases hplay with ⟨tr, c, hrun, hquiet, hnot⟩
  exact hnot (hall _ tr c (plain_undoes _) hrun (Service.Run.quiet hrun hquiet))

end Aardbin
