import Aardbin.Effect.Ownership
import Aardbin.PlainVendor
import Aardbin.Saving.Protocol

/-!
# Saving a record: what cannot be decrypted is not overwritten

`update_record` checks that the old blob decrypts, and writes only after the whole upload.  In
between the blob may change, but only to one that decrypts as well: whatever a request writes is
encrypted under the key of the process, or is an old blob that passed the check.
-/

namespace Aardbin

open Effect

/-! ## The invariant -/

/-- Once a request has found a blob that decrypts, the record's blob decrypts. -/
structure Readable (s : Server) (gs : ℕ → Option Saving) : Prop where
  app : Each (fun _ g => g.app = s.app) gs
  rows : Each (fun _ g => ∀ id blob, g.read = some (id, blob) → s.app.crypto.Reads blob →
    ∀ row ∈ s.store.db.records, row.id = id → s.app.crypto.Reads row.blob) gs

/-- A handler writes only blobs that decrypt. -/
theorem Saving.reads_wrote {g : Saving} (hcrypto : g.app.crypto.Undoes) {op : Call}
    {r : Reply op} (hpre : g.pre op) {id : String} {blob : Bytes}
    (hop : op.wrote? r = some (id, blob)) : g.app.crypto.Reads blob := by
  have henc : ∀ blob, g.Encrypts blob → g.app.crypto.Reads blob := by
    rintro _ ⟨text, nonce, -, rfl⟩
    exact hcrypto.reads nonce _ _
  unfold Call.wrote? at hop
  split at hop
  · rename_i c v
    unfold DbCall.wrote? at hop
    split at hop
    · cases hop
      exact henc _ hpre.2.2
    · cases hop
      -- The text of the form, or the old blob, whose check has passed.
      rcases hpre with ⟨old, -, hold, ⟨-, hblob⟩ | ⟨-, rfl⟩⟩
      · exact henc _ hblob
      · exact hold
    · cases hop
  · cases hop

namespace Readable

variable {s s' : Server} {gs : ℕ → Option Saving} {i : ℕ} {g : Saving}

theorem start (h : Readable s gs) (req : Request) :
    Readable s (Function.update gs i (some (Saving.born s.app req))) := by
  refine ⟨h.app.set rfl fun _ _ _ _ hj => hj, h.rows.set ?_ fun _ _ _ _ hj => hj⟩
  intro id blob hread
  cases hread

theorem drop (h : Readable s gs) : Readable s (Function.update gs i none) :=
  ⟨h.app.drop fun _ _ _ _ hj => hj, h.rows.drop fun _ _ _ _ hj => hj⟩

theorem ask (h : Readable s gs) (hcrypto : s.app.crypto.Undoes) (hi : gs i = some g) {e : Env}
    {op : Call} {r : Reply op} (hpre : g.pre op) (hans : s.answer e op = some (r, s')) :
    Readable s' (Function.update gs i (some (g.upd op r))) := by
  rcases Server.answer_eq_some hans with ⟨hstore, happ⟩
  have hg : g.app = s.app := h.app i g hi
  -- A row that was written decrypts; any other is an old row.
  have hrows : ∀ id, (∀ row ∈ s.store.db.records, row.id = id → s.app.crypto.Reads row.blob) →
      ∀ row' ∈ s'.store.db.records, row'.id = id → s.app.crypto.Reads row'.blob := by
    rintro id hold row' hrow' rfl
    rcases Store.blobs_answer hstore row' hrow' with hwrote | ⟨row, hrow, hid, hblob, -⟩
    · rw [← hg] at hcrypto ⊢
      exact Saving.reads_wrote hcrypto hpre hwrote
    · rw [← hblob]
      exact hold row hrow hid
  refine ⟨h.app.set (by rw [Saving.app_upd, hg, happ]) ?_, h.rows.set ?_ ?_⟩
  · intro j g' _ _ hj
    rw [hj, happ]
  · intro id blob hread hreads
    rw [happ] at hreads ⊢
    rcases Saving.read_upd hread with ⟨hbefore, -⟩ | ⟨rfl, row, rfl, rfl⟩
    · exact hrows id (h.rows i g hi id blob hbefore hreads)
    · -- The record is read now: ids are unique, so its row is the one that was read.
      refine hrows id fun row₁ hrow₁ hid₁ => ?_
      rcases Store.answer_db_ok hstore with ⟨db, -, hexec, -⟩
      simp only [Db.exec, Except.ok.injEq, Prod.mk.injEq] at hexec
      have hid : row.id = id := by simpa using List.find?_some hexec.1
      have heq : row₁ = row := Db.eq_of_record_id hrow₁ (List.mem_of_find?_eq_some hexec.1)
        (hid₁.trans hid.symm)
      rwa [heq]
  · intro j g' _ _ hj id blob hread hreads
    rw [happ] at hreads ⊢
    exact hrows id (hj id blob hread hreads)

/-- A blob that does not decrypt stays until the record is deleted: whoever might overwrite it has
found another blob there, which did decrypt. -/
theorem not_overwritten (h : Readable s gs) (hi : gs i = some g) {e : Env} {op : Call}
    {r : Reply op} (hpre : g.pre op) (hans : s.answer e op = some (r, s')) {row : RecordRow}
    (hrow : row ∈ s.store.db.records) (hblob : ¬ s.app.crypto.Reads row.blob)
    (hdelete : op.deleted? r ≠ some row.id) :
    ∃ row' ∈ s'.store.db.records, row'.id = row.id ∧ row'.blob = row.blob := by
  refine Store.kept_answer (Server.answer_eq_some hans).1 hrow ?_ hdelete
  rintro b now rfl
  rcases hpre with ⟨old, hread, hold, -⟩
  rw [h.app i g hi] at hold
  exact hblob (h.rows i g hi row.id old hread hold row hrow rfl)

end Readable

/-! ## Runs -/

/-- The process may restart under any key, with the same code. -/
def decrypting (v : Vendor) : Outline server saving where
  born := fun s req => Saving.born s.app req
  post := fun _ => SavePost
  inv := fun _ s gs => s.app.vendor = v ∧ Readable s gs

theorem decrypting_valid {v : Vendor}
    (hcrypto : ∀ key, ({ vendor := v, key } : Crypto).Undoes) :
    (decrypting v).Valid fun _ _ _ => True where
  handler := fun s req => wp_saving_handle s.app req
  start := by
    rintro tr c gs i req - - - ⟨hv, h⟩
    exact ⟨hv, h.start req⟩
  ask := by
    rintro tr c gs i g e op r s' - - hi hpre hans ⟨hv, h⟩
    refine ⟨g.upd op r, rfl, ?_, h.ask ?_ hi hpre hans⟩
    · rw [(Server.answer_eq_some hans).2, hv]
    · have hundoes := hcrypto c.shared.app.cfg.cryptoKey
      rwa [← hv] at hundoes
  finish := by
    rintro tr c gs i g req res - - - - ⟨hv, h⟩
    exact ⟨hv, h.drop⟩
  abandon := by
    rintro tr c gs i g - - ⟨hv, h⟩
    exact ⟨hv, h.drop⟩
  reboot := by
    rintro tr c gs b - ⟨hv, -⟩
    exact ⟨hv, .idle, .idle⟩

/-- The record is not deleted, and the process does not restart. -/
def Spares (id : String) : Guard Reply Server Env Boot Request Response
  | _, _, .ask _ _ op r => op.deleted? r ≠ some id
  | _, _, .reboot _ => False
  | _, _, _ => True

instance (id : String) (tr : Log) (c : Pool Reply Server Response) :
    (e : Event Reply Env Boot Request Response) → Decidable (Spares id tr c e)
  | .ask _ _ _ _ => inferInstanceAs (Decidable (_ ≠ _))
  | .reboot _ => .isFalse fun h => h
  | .start _ _ | .finish _ _ | .abandon _ => .isTrue trivial

/-- An undecryptable record is never overwritten: from any state of any run, with failing calls,
abandoned requests and restarts under other keys before it, a blob that does not decrypt under the
key of the process stays as it is until the record is deleted or the process restarts. -/
theorem undecryptable_kept {s₀ : Server}
    (hcrypto : ∀ key, ({ vendor := s₀.app.vendor, key } : Crypto).Undoes) {tr₁ tr₂ : Log}
    {c₁ c₂ : Pool Reply Server Response} (h₁ : server.Run (fun _ _ _ => True) s₀ tr₁ c₁)
    {row : RecordRow} (hrow : row ∈ c₁.shared.store.db.records)
    (hblob : ¬ c₁.shared.app.crypto.Reads row.blob) (h₂ : server.Steps (Spares row.id) c₁ tr₂ c₂) :
    ∃ row' ∈ c₂.shared.store.db.records, row'.id = row.id ∧ row'.blob = row.blob := by
  -- The process keeps its key as well, so the blob stays undecryptable along the run.
  suffices h : c₂.shared.app = c₁.shared.app ∧
      ∃ row' ∈ c₂.shared.store.db.records, row'.id = row.id ∧ row'.blob = row.blob from h.2
  induction h₂ with
  | refl => exact ⟨rfl, row, hrow, rfl, rfl⟩
  | @snoc tr c c' m e hsteps hm hg ih =>
      rcases ih with ⟨happ, row', hrow', hid, hsame⟩
      rcases Service.move_cases hm with ⟨req, rfl, rfl⟩ | ⟨i, a, ht, rfl, rfl⟩ |
        ⟨i, env, op, k, r, s', ht, hans, rfl, rfl⟩ | ⟨i, p, ht, rfl, rfl⟩ | ⟨b, rfl, rfl⟩
      · exact ⟨happ, row', hrow', hid, hsame⟩
      · exact ⟨happ, row', hrow', hid, hsame⟩
      · -- The invariant holds in the state before this call, from the start of the whole run.
        have hrun : server.Run (fun _ _ _ => True) s₀ (tr₁ ++ tr) c :=
          h₁.trans (hsteps.mono fun _ _ _ _ => trivial)
        rcases (decrypting_valid hcrypto).run ⟨rfl, .idle, .idle⟩ hrun with
          ⟨gs, ⟨-, hinv⟩, hfollow, -⟩
        have hf := hfollow i
        rw [ht] at hf
        rcases hf.ghost with ⟨g, hgi, req, -, hpre, -⟩
        refine ⟨(Server.answer_eq_some hans).2.trans happ, ?_⟩
        have hblob' : ¬ c.shared.app.crypto.Reads row'.blob := by
          rwa [happ, hsame]
        rcases hinv.not_overwritten hgi hpre hans hrow' hblob' (hid ▸ hg) with
          ⟨row₂, hrow₂, hid₂, hsame₂⟩
        exact ⟨row₂, hrow₂, hid₂.trans hid, hsame₂.trans hsame⟩
      · exact ⟨happ, row', hrow', hid, hsame⟩
      · exact hg.elim

/-- A record is created, the process restarts under another key, and an update of the record is
refused while another record is created. -/
theorem undecryptable_kept_run : ∃ tr₁ c₁ tr₂ c₂,
    server.Run (fun _ _ _ => True) { app := .plain, store := .empty } tr₁ c₁ ∧
      server.Steps (Spares "r1") c₁ tr₂ c₂ ∧ tr₂.length = 9 ∧
      ∃ row ∈ c₁.shared.store.db.records, row.id = "r1" ∧ ¬ c₁.shared.app.crypto.Reads row.blob ∧
        ∃ row' ∈ c₂.shared.store.db.records, row'.id = "r1" ∧ row'.blob = row.blob := by
  let later : List (Move Env Boot Request) := .start (.update "r1" noHeaders (form "c" "d" [])) ::
    .start (.create noHeaders (form "e" "f" [])) :: stepsOf 1 [{}] ++
    stepsOf 2 [{ uuid := "r2" }, {}, {}, {}, {}] ++ stepsOf 1 [{}]
  have hplay : ∃ tr c, server.Run (fun _ _ _ => True) { app := .plain, store := .empty } tr c ∧
      (∃ row ∈ c.shared.store.db.records, row.id = "r1" ∧ ¬ c.shared.app.crypto.Reads row.blob) ∧
      (server.play (Spares "r1") later [] c).any
        (fun x => decide (x.1.length = 9)) = true := by
    refine Service.exists_run (.start (.create noHeaders (form "a" "b" [])) ::
      stepsOf 0 [{ uuid := "r1" }, {}, {}, {}, {}, {}] ++ [.reboot
        { cfg := { AppState.plain.cfg with cryptoKey := ⟨.replicate 32 8, rfl⟩ }
          stuck := fun _ => false }]) ?_
    decide +kernel
  rcases hplay with ⟨tr₁, c₁, h₁, ⟨row, hrow, hid, hblob⟩, hlater⟩
  rcases Service.exists_steps later (P := fun tr _ => tr.length = 9) hlater with ⟨tr₂, c₂, h₂, hlen⟩
  refine ⟨tr₁, c₁, tr₂, c₂, h₁, h₂, hlen, row, hrow, hid, hblob, ?_⟩
  rw [← hid] at h₂ ⊢
  exact undecryptable_kept plain_undoes h₁ hrow hblob h₂

end Aardbin
