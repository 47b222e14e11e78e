import Aardbin.Notify.Protocol

/-!
# Every write is announced once all requests have ended

As long as a write is unsent, some request in flight covers it.
-/

namespace Aardbin

open Effect

/-! ## The runs -/

/-- A database call fails only where the foreign key refuses a row; no request is abandoned, and
the process does not stop. -/
def OnlyForeignKey : Guard Reply Server Env Boot Request Response
  | _, _, .ask _ _ (.db _) (.error err) => err = .foreignKey
  | _, _, .abandon _ => False
  | _, _, .reboot _ => False
  | _, _, _ => True

instance (tr : Log) (c : Pool Reply Server Response) :
    (e : Event Reply Env Boot Request Response) → Decidable (OnlyForeignKey tr c e)
  | .ask _ _ (.db _) (.error err) => inferInstanceAs (Decidable (err = .foreignKey))
  | .ask _ _ (.db _) (.ok _) => inferInstanceAs (Decidable True)
  | .ask _ _ (.file _) _ => inferInstanceAs (Decidable True)
  | .ask _ _ .newV4 _ => inferInstanceAs (Decidable True)
  | .ask _ _ .now _ => inferInstanceAs (Decidable True)
  | .ask _ _ .nonce _ => inferInstanceAs (Decidable True)
  | .ask _ _ .send _ => inferInstanceAs (Decidable True)
  | .ask _ _ .panic r => r.elim
  | .abandon _ => inferInstanceAs (Decidable False)
  | .reboot _ => inferInstanceAs (Decidable False)
  | .start _ _ => inferInstanceAs (Decidable True)
  | .finish _ _ => inferInstanceAs (Decidable True)

def unsentAfter (unsent : Bool) : Event Reply Env Boot Request Response → Bool
  | .ask _ _ op r => unsentStep unsent op r
  | _ => unsent

/-- Has a write been left without a `send` after it? -/
def unsent (tr : Log) : Bool :=
  tr.foldl unsentAfter false

theorem unsent_snoc (tr : Log) (e : Event Reply Env Boot Request Response) :
    unsent (tr ++ [e]) = unsentAfter (unsent tr) e := by
  rw [unsent, List.foldl_append]
  rfl

theorem fault_of_onlyForeignKey {tr : Log} {p : Pool Reply Server Response} {i : ℕ} {e : Env}
    {c : DbCall} {r : Except DbError c.Val} {w w' : Store}
    (hguard : OnlyForeignKey tr p (.ask i e (.db c) r)) (hans : w.answer e (.db c) = some (r, w')) :
    e.fault = false := by
  cases hf : e.fault with
  | false => rfl
  | true =>
      -- The error would be another one.
      simp only [Store.answer, hf, if_true, Option.some.injEq, Prod.mk.injEq] at hans
      rcases hans with ⟨rfl, -⟩
      cases hguard

/-! ## Who covers a write -/

namespace Notice

variable {w w' : Store} {g : Notice} {e : Env} {op : Call} {r : Reply op}

/-- The request that writes covers its write. -/
theorem covers_of_writes (hpre : g.pre op) (hans : w.answer e op = some (r, w'))
    (hwrites : op.writes r = true) : (g.upd op r).Covers w' := by
  cases op with
  | db c =>
      cases r with
      | error err => cases hwrites
      | ok v =>
          rcases Store.answer_db_ok hans with ⟨db, -, hexec, rfl⟩
          cases c with
          | createRecord id blob now =>
              refine .inr ⟨id, rfl, ?_⟩
              rw [Db.recordIds, (Db.createRecord_eq_ok (Db.of_exec_createRecord hexec)).2.1]
              simp
          | updateRecord id blob now =>
              simp only [Db.exec, Db.updateRecord, Except.ok.injEq, Prod.mk.injEq] at hexec
              rcases hexec with ⟨hfound, rfl⟩
              obtain rfl : v = true := hwrites
              exact .inr ⟨id, rfl, by simpa using hfound⟩
          | touchRecord id now =>
              -- Only a request that removed an attachment touches a record, and it owes a message.
              exact .inl hpre
          | deleteRecord id =>
              cases v with
              | none => cases hwrites
              | some ids => exact .inl rfl
          | insertAttachment a =>
              rcases Db.insertAttachment_eq_ok (Db.of_exec_insertAttachment hexec) with
                ⟨-, href, hrecords, -⟩
              refine .inr ⟨a.recordId, hpre, ?_⟩
              rw [Db.recordIds, hrecords]
              exact href
          | deleteAttachment recordId attachmentId =>
              cases v with
              | none => cases hwrites
              | some row => exact .inl rfl
          | _ => cases hwrites
  | _ => cases hwrites

/-- A call that writes nothing and announces nothing leaves the cover as it is. -/
theorem Covers.upd (h : g.Covers w) (hans : w.answer e op = some (r, w'))
    (hwrites : op.writes r = false) (hsend : op ≠ .send) : (g.upd op r).Covers w' := by
  have hdb : w'.db = w.db := Store.db_answer_of_not_writes hans hwrites
  have hsame : (g.upd op r).owes = g.owes ∧ (g.upd op r).saved = g.saved := by
    cases op with
    | db c =>
        simp only [Notice.upd, updDb]
        split
        all_goals first | exact ⟨rfl, rfl⟩ | cases hwrites
    | send => exact absurd rfl hsend
    | _ => exact ⟨rfl, rfl⟩
  unfold Covers
  rw [hsame.1, hsame.2, hdb]
  exact h

end Notice

/-! ## The invariant -/

/-- The part of the ghost states that follows the custody protocol. -/
def heldOf (gs : ℕ → Option (Held × Notice)) : ℕ → Option Held :=
  fun i => (gs i).map (·.1)

theorem heldOf_update (gs : ℕ → Option (Held × Notice)) (i : ℕ) (g : Option (Held × Notice)) :
    heldOf (Function.update gs i g) = Function.update (heldOf gs) i (g.map (·.1)) := by
  funext j
  by_cases hj : j = i
  · subst hj
    simp [heldOf]
  · simp [heldOf, hj]

structure Told (tr : Log) (w : Store) (gs : ℕ → Option (Held × Notice)) : Prop where
  ledger : Ledger w (heldOf gs)
  gone : Each (fun _ g => ∀ id, g.2.gone = some id →
    Spent w (heldOf gs) id ∧ id ∉ w.db.recordIds) gs
  covered : unsent tr = true → ∃ i g, gs i = some g ∧ g.2.Covers w

namespace Told

variable {tr : Log} {w w' : Store} {gs : ℕ → Option (Held × Notice)} {i : ℕ} {g : Held × Notice}

theorem init {w : Store} (hids : ∀ id ∈ w.db.recordIds, id ∈ w.issued) :
    Told [] w fun _ => none := by
  refine ⟨⟨fun id hid => ⟨hids id hid, ?_⟩, .idle, .idle, .idle⟩, .idle, fun h => by cases h⟩
  rintro ⟨i, g, hi, -⟩
  cases hi

theorem start (h : Told tr w gs) (hi : gs i = none) (req : Request) :
    Told (tr ++ [.start i req]) w (Function.update gs i (some (Held.born req, {}))) := by
  refine ⟨?_, h.gone.set ?_ ?_, fun hunsent => ?_⟩
  · rw [heldOf_update]
    exact h.ledger.start req
  · rintro id ⟨⟩
  · intro j g' _ _ hg id hid
    rw [heldOf_update]
    exact ⟨(hg id hid).1.start i req, (hg id hid).2⟩
  · rw [unsent_snoc] at hunsent
    rcases h.covered hunsent with ⟨j, g', hj, hcovers⟩
    have hne : j ≠ i := by
      rintro rfl
      rw [hi] at hj
      cases hj
    exact ⟨j, g', by simpa [hne] using hj, hcovers⟩

/-- A request that ends covers nothing: what it has not announced is gone. -/
theorem finish (h : Told tr w gs) (hi : gs i = some g) (hg : g.2.Settled) (res : Response) :
    Told (tr ++ [.finish i res]) w (Function.update gs i none) := by
  refine ⟨?_, h.gone.drop ?_, fun hunsent => ?_⟩
  · rw [heldOf_update]
    exact h.ledger.drop
  · intro j g' _ _ hg' id hid
    rw [heldOf_update]
    exact ⟨(hg' id hid).1.drop i, (hg' id hid).2⟩
  · rw [unsent_snoc] at hunsent
    rcases h.covered hunsent with ⟨j, g', hj, hcovers⟩
    have hne : j ≠ i := by
      rintro rfl
      rw [hi, Option.some.injEq] at hj
      subst hj
      rcases hcovers with howes | ⟨id, hsaved, hmem⟩
      · rw [hg.owes] at howes
        cases howes
      · rcases hg.saved with hnone | hgone
        · rw [hnone] at hsaved
          cases hsaved
        · exact (h.gone j g hi id (hgone.trans hsaved)).2 hmem
    exact ⟨j, g', by simpa [hne] using hj, hcovers⟩

/-- The record of a refused insert is not there. -/
theorem gone_upd (h : Told tr w gs) (hi : gs i = some g) {p : Pool Reply Server Response} {e : Env}
    {op : Call} {r : Reply op} (hguard : OnlyForeignKey tr p (.ask i e op r)) (hpre : g.1.pre op)
    (hans : w.answer e op = some (r, w')) :
    ∀ id, (g.2.upd op r).gone = some id → Spent w (heldOf gs) id ∧ id ∉ w.db.recordIds := by
  intro id hid
  have hold : g.2.gone = some id → Spent w (heldOf gs) id ∧ id ∉ w.db.recordIds := h.gone i g hi id
  cases op with
  | db c =>
      cases c with
      | insertAttachment a =>
          cases r with
          | ok _ => exact hold hid
          | error err =>
              -- Only a foreign key is refused here, and the id of the record is not fresh.
              obtain rfl : a.recordId = id := Option.some.inj hid
              have hfk : err = .foreignKey := hguard
              subst hfk
              have hseen : Spent w (heldOf gs) a.recordId :=
                h.ledger.seen i g.1 (by simp [heldOf, hi]) _ hpre.1
              refine ⟨hseen, ?_⟩
              rcases (Store.answer_db_error hans).2 with hf | hexec
              · rw [fault_of_onlyForeignKey hguard hans] at hf
                cases hf
              · simp only [Db.exec] at hexec
                split at hexec
                · rename_i hinsert
                  cases hexec
                  exact Db.insertAttachment_eq_foreignKey hinsert
                · cases hexec
      | updateRecord id' blob now => rcases r with _ | _ | _ <;> exact hold hid
      | deleteRecord id' => rcases r with _ | _ | _ <;> exact hold hid
      | deleteAttachment recordId attachmentId => rcases r with _ | _ | _ <;> exact hold hid
      | _ => cases r <;> exact hold hid
  | _ => exact hold hid

theorem steady (h : Told tr w gs) (hi : gs i = some g) {p : Pool Reply Server Response} {e : Env}
    {op : Call} {r : Reply op} (hguard : OnlyForeignKey tr p (.ask i e op r))
    (hans : w.answer e op = some (r, w')) : g.2.Steady op r := by
  cases op with
  | db c =>
      cases c with
      | updateRecord id blob now =>
          rcases r with err | _ | _
          · trivial
          · trivial
          · rcases Store.answer_db_ok hans with ⟨db, -, hexec, -⟩
            simp only [Db.exec, Db.updateRecord, Except.ok.injEq, Prod.mk.injEq,
              decide_eq_true_eq] at hexec
            exact fun hgone => (h.gone i g hi id hgone).2 hexec.1
      | deleteRecord id =>
          rcases r with err | _ | ids
          · trivial
          · trivial
          · rcases Store.answer_db_ok hans with ⟨db, -, hexec, -⟩
            have hmem := (Db.deleteRecord_eq_some (Except.ok.inj hexec)).1
            exact fun hgone => (h.gone i g hi id hgone).2 hmem
      | touchRecord id now =>
          cases r with
          | ok _ => trivial
          | error err =>
              -- Touching a row fails only of itself.
              rcases (Store.answer_db_error hans).2 with hf | hexec
              · rw [fault_of_onlyForeignKey hguard hans] at hf
                cases hf
              · cases hexec
      | _ => cases r <;> trivial
  | _ => trivial

theorem ask (h : Told tr w gs) (hi : gs i = some g) {p : Pool Reply Server Response} {e : Env}
    {op : Call} {r : Reply op} (hguard : OnlyForeignKey tr p (.ask i e op r))
    (hcustody : g.1.pre op) (hnotice : g.2.pre op) (hans : w.answer e op = some (r, w')) :
    Told (tr ++ [.ask i e op r]) w'
      (Function.update gs i (some (g.1.upd op r, g.2.upd op r))) := by
  have hheld : heldOf gs i = some g.1 := by simp [heldOf, hi]
  have hgone : ∀ id, Spent w (heldOf gs) id ∧ id ∉ w.db.recordIds →
      Spent w' (heldOf (Function.update gs i (some (g.1.upd op r, g.2.upd op r)))) id ∧
        id ∉ w'.db.recordIds := by
    rintro id ⟨hspent, hnot⟩
    rw [heldOf_update]
    exact ⟨hspent.ask hheld hans, hspent.not_recreated hheld hcustody hans hnot⟩
  refine ⟨?_, h.gone.set ?_ ?_, fun hunsent => ?_⟩
  · rw [heldOf_update]
    exact h.ledger.ask hheld hcustody hans
  · exact fun id hid => hgone id (h.gone_upd hi hguard hcustody hans id hid)
  · exact fun j g' _ _ hg' id hid => hgone id (hg' id hid)
  · rw [unsent_snoc] at hunsent
    simp only [unsentAfter, unsentStep] at hunsent
    split_ifs at hunsent with hsend
    cases hwrites : op.writes r with
    | true =>
        exact ⟨i, (g.1.upd op r, g.2.upd op r), by simp,
          Notice.covers_of_writes hnotice hans hwrites⟩
    | false =>
        -- Whoever covered the write before still does.
        rw [hwrites, Bool.or_false] at hunsent
        rcases h.covered hunsent with ⟨j, g', hj, hcovers⟩
        by_cases hji : j = i
        · subst hji
          rw [hi, Option.some.injEq] at hj
          subst hj
          exact ⟨j, (g.1.upd op r, g.2.upd op r), by simp, hcovers.upd hans hwrites hsend⟩
        · refine ⟨j, g', by simpa [hji] using hj, ?_⟩
          unfold Notice.Covers
          rw [Store.db_answer_of_not_writes hans hwrites]
          exact hcovers

end Told

def telling : Outline server (both (custody False) noticing) where
  born := fun _ req => (Held.born req, {})
  post := fun _ _ g => g.2.Settled
  inv := fun tr s gs => Told tr s.store gs

theorem telling_valid : telling.Valid OnlyForeignKey where
  handler := by
    intro s req
    exact wp_mono (wp_both (wp_handle s.app req) (wp_noticing_handle s.app req)) fun _ _ h => h.2
  start := by
    intro tr c gs i req _ _ hi h
    exact h.start hi req
  ask := by
    intro tr c gs i g e op r s' hguard _ hi hpre hans h
    have hstore := (Server.answer_eq_some hans).1
    exact ⟨(g.1.upd op r, g.2.upd op r), ⟨⟨rfl, False.elim⟩, rfl, h.steady hi hguard hstore⟩,
      h.ask hi hguard hpre.1 hpre.2 hstore⟩
  finish := by
    intro tr c gs i g req res _ _ hi hpost h
    exact h.finish hi hpost res
  abandon := by
    intro tr c gs i g hguard
    exact hguard.elim
  reboot := by
    intro tr c gs b hguard
    exact hguard.elim

/-- When no request is in flight, a `send` has followed every write. -/
theorem unsent_of_quiet {app : AppState} {w : Store} (hids : ∀ id ∈ w.db.recordIds, id ∈ w.issued)
    {tr : Log} {c : Pool Reply Server Response}
    (hrun : server.Run OnlyForeignKey { app, store := w } tr c) (hquiet : c.Quiet) :
    unsent tr = false := by
  have hinit : telling.inv [] { app, store := w } fun _ => none := Told.init hids
  rcases telling_valid.run hinit hrun with ⟨gs, htold, hfollows, -⟩
  by_contra hunsent
  rw [Bool.not_eq_false] at hunsent
  rcases Told.covered htold hunsent with ⟨i, g, hi, -⟩
  -- A request that covers the write is in flight.
  have hnone := (hfollows i).none_iff.1 (hquiet i)
  rw [hi] at hnone
  cases hnone

end Aardbin
