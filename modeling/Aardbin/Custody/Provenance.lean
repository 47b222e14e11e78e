import Aardbin.Custody.Invariant

/-!
# Custody of files: every stored file is one upload

Also a file that has lost its row, or never got one, is the content of the file part for which its
id was handed out.  Ids are handed out once, so an id stands for the same bytes for ever.
-/

namespace Aardbin

open Effect

/-! ## The invariant -/

structure Provenance (tr : Log) (w : Store) : Prop where
  stored : ∀ id b, w.files.attachments id = some b → Uploaded tr id b
  issued : ∀ i, ∀ id ∈ begun (byThread i tr), id ∈ w.issued
  nodup : ∀ i, (begun (byThread i tr)).Nodup
  apart : ∀ i j, i ≠ j → (begun (byThread i tr)).Disjoint (begun (byThread j tr))
  starts : ∀ i req req', .start i req ∈ tr → .start i req' ∈ tr → req = req'

/-- A file in `attachments` was there before, or is the temp file that was renamed. -/
theorem attachments_answerFile {e : Env} {w w' : Store} {op : Call} {r : Reply op}
    (h : w.answer e op = some (r, w')) {id : String} {b : Bytes}
    (hfile : w'.files.attachments id = some b) :
    w.files.attachments id = some b ∨
      (op = .file (.finalizeUpload id) ∧ w.files.tmp id = some b) := by
  cases op with
  | file c =>
      cases c with
      | beginUpload =>
          rcases Store.answer_beginUpload h with ⟨-, rfl, -⟩ | ⟨_, -, -, rfl⟩ <;> exact .inl hfile
      | writeAll id' chunk =>
          rcases Store.answer_writeAll h with ⟨-, rfl, -⟩ | ⟨-, rfl⟩ <;> exact .inl hfile
      | finalizeUpload id' =>
          rcases Store.answer_finalizeUpload h with ⟨_, -, rfl, -⟩ | ⟨bytes, htmp, -, rfl⟩
          · exact .inl hfile
          · by_cases hid : id = id'
            · subst hid
              obtain rfl : bytes = b := by simpa using hfile
              exact .inr ⟨rfl, htmp⟩
            · exact .inl (by simpa [hid] using hfile)
      | abortUpload id' =>
          rcases Store.answer_abortUpload h with ⟨rfl, -⟩ | rfl <;> exact .inl hfile
      | deleteAttachment id' =>
          rcases Store.answer_deleteAttachment h with ⟨rfl, -⟩ | rfl
          · exact .inl hfile
          · by_cases hid : id = id'
            · simp [FileStore.deleteAttachment, hid] at hfile
            · exact .inl (by simpa [FileStore.deleteAttachment, hid] using hfile)
  | db c =>
      rcases Store.answer_db h with ⟨err, -, rfl, -⟩ | ⟨v, db, -, -, -, rfl⟩ <;> exact .inl hfile
  | newV4 =>
      rcases Store.answer_newV4 h with ⟨-, rfl⟩
      exact .inl hfile
  | panic => cases h
  | _ =>
      cases h
      exact .inl hfile

theorem begun_byThread_other {tr : Log} {e : Event Reply Env Boot Request Response}
    (he : begun? e = none) (i : ℕ) : begun (byThread i (tr ++ [e])) = begun (byThread i tr) := by
  by_cases hi : e.thread? = some i
  · rw [byThread_snoc_self hi, begun_snoc, he, Option.toList_none, List.append_nil]
  · rw [byThread_snoc_other hi]

theorem Uploaded.append {tr : Log} {id : String} {b : Bytes} (h : Uploaded tr id b) (tr' : Log) :
    Uploaded (tr ++ tr') id b := by
  induction tr' using List.reverseRecOn with
  | nil => simpa using h
  | append_singleton tr' e ih => simpa using ih.mono e

/-- In a zipped list the first components determine the second ones, when none comes twice. -/
theorem eq_of_mem_zip_of_nodup {α β : Type} {as : List α} {bs : List β} {a : α} {b b' : β}
    (has : as.Nodup) (h : (a, b) ∈ as.zip bs) (h' : (a, b') ∈ as.zip bs) : b = b' := by
  induction as generalizing bs with
  | nil => simp at h
  | cons x as ih =>
      rcases bs with _ | ⟨y, bs⟩
      · simp at h
      · rcases List.nodup_cons.1 has with ⟨hx, has⟩
        simp only [List.zip_cons_cons, List.mem_cons, Prod.mk.injEq] at h h'
        rcases h with ⟨rfl, rfl⟩ | h <;> rcases h' with ⟨hax, hb'⟩ | h'
        · exact hb'.symm
        · exact absurd (List.of_mem_zip h').1 hx
        · exact absurd (hax ▸ (List.of_mem_zip h).1) hx
        · exact ih has h h'

namespace Provenance

variable {tr : Log} {w w' : Store}

theorem empty : Provenance [] .empty :=
  ⟨by simp [Store.empty, FileStore.empty], by simp [byThread, begun], by simp [byThread, begun],
    by simp [byThread, begun], by simp⟩

/-- An event that hands out no id and stores no file. -/
theorem skip (h : Provenance tr w) {e : Event Reply Env Boot Request Response}
    (hbegun : begun? e = none) (hstart : ∀ i req, e ≠ .start i req)
    (hfiles : ∀ id b, w'.files.attachments id = some b → w.files.attachments id = some b)
    (hissued : ∀ id ∈ w.issued, id ∈ w'.issued) : Provenance (tr ++ [e]) w' := by
  have hold : ∀ {i req}, .start i req ∈ tr ++ [e] → .start i req ∈ tr := by
    intro i req hreq
    rcases List.mem_append.1 hreq with hreq | hnew
    · exact hreq
    · exact absurd (List.mem_singleton.1 hnew).symm (hstart i req)
  refine ⟨fun id b hfile => (h.stored id b (hfiles id b hfile)).mono e, ?_, ?_, ?_, ?_⟩
  · intro i id hid
    rw [begun_byThread_other hbegun] at hid
    exact hissued id (h.issued i id hid)
  · intro i
    rw [begun_byThread_other hbegun]
    exact h.nodup i
  · intro i j hij
    rw [begun_byThread_other hbegun, begun_byThread_other hbegun]
    exact h.apart i j hij
  · exact fun i req req' hreq hreq' => h.starts i req req' (hold hreq) (hold hreq')

theorem start (h : Provenance tr w) {i : ℕ} (req : Request) (hi : Outline.Unused i tr) :
    Provenance (tr ++ [.start i req]) w := by
  have hbegun : begun? (.start i req) = none := rfl
  refine ⟨fun id b hfile => (h.stored id b hfile).mono _, ?_, ?_, ?_, ?_⟩
  · intro j id hid
    rw [begun_byThread_other hbegun] at hid
    exact h.issued j id hid
  · intro j
    rw [begun_byThread_other hbegun]
    exact h.nodup j
  · intro j k hjk
    rw [begun_byThread_other hbegun, begun_byThread_other hbegun]
    exact h.apart j k hjk
  · -- The number is new, so this is its only start.
    intro j req₁ req₂ h₁ h₂
    simp only [List.mem_append, List.mem_singleton, Event.start.injEq] at h₁ h₂
    rcases h₁ with h₁ | ⟨rfl, rfl⟩ <;> rcases h₂ with h₂ | ⟨hj, h₂⟩
    · exact h.starts j req₁ req₂ h₁ h₂
    · exact absurd (hj ▸ rfl) (hi _ h₁)
    · exact absurd rfl (hi _ h₂)
    · exact h₂.symm

/-- A new id is handed out to request `i`. -/
theorem handOut (h : Provenance tr w) {i : ℕ} {e : Env} {id : String} (hid : id ∉ w.issued)
    (hfiles : w'.files.attachments = w.files.attachments) (hissued : w'.issued = id :: w.issued) :
    Provenance (tr ++ [.ask i e (.file .beginUpload) (.ok id)]) w' := by
  have hself : begun (byThread i (tr ++ [.ask i e (.file .beginUpload) (.ok id)])) =
      begun (byThread i tr) ++ [id] := by
    rw [byThread_snoc_self rfl, begun_snoc]
    rfl
  have hother : ∀ j, j ≠ i → byThread j (tr ++ [.ask i e (.file .beginUpload) (.ok id)]) =
      byThread j tr := fun j hj => byThread_snoc_other (by simpa [Event.thread?] using Ne.symm hj)
  have hnew : ∀ j, id ∉ begun (byThread j tr) := fun j hmem => hid (h.issued j id hmem)
  refine ⟨?_, ?_, ?_, ?_, ?_⟩
  · intro id' b hfile
    rw [hfiles] at hfile
    exact (h.stored id' b hfile).mono _
  · intro j id' hid'
    rw [hissued]
    by_cases hj : j = i
    · subst hj
      rw [hself] at hid'
      rcases List.mem_append.1 hid' with hold | hlast
      · exact List.mem_cons_of_mem _ (h.issued j id' hold)
      · rw [List.mem_singleton.1 hlast]
        exact List.mem_cons_self
    · rw [hother j hj] at hid'
      exact List.mem_cons_of_mem _ (h.issued j id' hid')
  · intro j
    by_cases hj : j = i
    · subst hj
      rw [hself]
      exact List.nodup_append.2 ⟨h.nodup j, List.nodup_singleton _, by
        intro a ha b hb
        rw [List.mem_singleton.1 hb]
        rintro rfl
        exact hnew j ha⟩
    · rw [hother j hj]
      exact h.nodup j
  · have hdisjoint : ∀ j, j ≠ i →
        (begun (byThread i tr) ++ [id]).Disjoint (begun (byThread j tr)) := by
      intro j hj id' hid' hmem
      rcases List.mem_append.1 hid' with hold | hlast
      · exact h.apart i j (Ne.symm hj) hold hmem
      · rw [List.mem_singleton.1 hlast] at hmem
        exact hnew j hmem
    intro j k hjk
    by_cases hj : j = i
    · subst hj
      rw [hself, hother k (Ne.symm hjk)]
      exact hdisjoint k (Ne.symm hjk)
    · rw [hother j hj]
      by_cases hk : k = i
      · subst hk
        rw [hself]
        exact (hdisjoint j hj).symm
      · rw [hother k hk]
        exact h.apart j k hjk
  · intro j req req' hreq hreq'
    exact h.starts j req req' (by simpa using hreq) (by simpa using hreq')

theorem ask {gs : ℕ → Option Held} (h : Provenance tr w) (hkept : Kept tr w gs) {i : ℕ} {g : Held}
    {e : Env} {op : Call} {r : Reply op} (hi : gs i = some g) (hpre : g.pre op)
    (hans : w.answer e op = some (r, w')) : Provenance (tr ++ [.ask i e op r]) w' := by
  cases hbegun : begun? (.ask i e op r) with
  | some id =>
      unfold begun? at hbegun
      split at hbegun
      · rename_i i' e' id' heq
        cases heq
        rcases Store.answer_beginUpload hans with ⟨hr, -⟩ | ⟨id₁, hr, hfresh, rfl⟩
        · cases hr
        · cases hr
          exact h.handOut hfresh.issued rfl rfl
      · cases hbegun
  | none =>
      have hissued := Store.issued_answer hans
      by_cases hop : ∃ id, op = .file (.finalizeUpload id)
      · -- The renamed file is the one that the request has in custody.
        rcases hop with ⟨id, rfl⟩
        have hskip : Provenance (tr ++ [.ask i e (.file (.finalizeUpload id)) r]) w :=
          h.skip hbegun (by simp) (fun _ _ hfile => hfile) fun _ hid => hid
        refine ⟨?_, fun j id hid => hissued id (hskip.issued j id hid), hskip.nodup, hskip.apart,
          hskip.starts⟩
        intro id' b hfile
        rcases attachments_answerFile hans hfile with hold | ⟨heq, htmp⟩
        · exact hskip.stored id' b hold
        · cases heq
          rcases hpre with ⟨-, b', hb', hzip⟩
          obtain rfl : b' = b := by
            have htmp' := (hkept.holds i g hi).tmp _ hb'
            rw [htmp, Option.some.injEq] at htmp'
            exact htmp'.symm
          rcases hkept.remembers i g hi with ⟨hids, req, hreq, hsent⟩
          exact Uploaded.mono ⟨i, req, hreq, by rwa [← hids, ← hsent]⟩ _
      · refine h.skip hbegun (by simp) (fun id b hfile => ?_) hissued
        rcases attachments_answerFile hans hfile with hold | ⟨rfl, -⟩
        · exact hold
        · exact absurd ⟨id, rfl⟩ hop

/-- One id, one content. -/
theorem functional (h : Provenance tr w) {id : String} {b b' : Bytes} (hb : Uploaded tr id b)
    (hb' : Uploaded tr id b') : b = b' := by
  rcases hb with ⟨i, req, hreq, hmem⟩
  rcases hb' with ⟨j, req', hreq', hmem'⟩
  have hij : i = j := by
    by_contra hij
    exact h.apart i j hij (List.of_mem_zip hmem).1 (List.of_mem_zip hmem').1
  subst hij
  rw [h.starts i req req' hreq hreq'] at hmem
  exact eq_of_mem_zip_of_nodup (h.nodup i) hmem hmem'

end Provenance

/-! ## Names of files -/

/-- The id that a call draws. -/
def Call.drawn? : (op : Call) → Reply op → Option String
  | .file .beginUpload, .ok id => some id
  | .newV4, id => some id
  | _, _ => none

/-- An issued id was issued before, or is drawn now. -/
theorem issued_or_drawn {e : Env} {w w' : Store} {op : Call} {r : Reply op}
    (h : w.answer e op = some (r, w')) :
    ∀ id ∈ w'.issued, id ∈ w.issued ∨ op.drawn? r = some id := by
  intro id hid
  cases op with
  | file c =>
      cases c with
      | beginUpload =>
          rcases Store.answer_beginUpload h with ⟨-, rfl, -⟩ | ⟨id', rfl, -, rfl⟩
          · exact .inl hid
          · rcases List.mem_cons.1 hid with rfl | hid
            · exact .inr rfl
            · exact .inl hid
      | writeAll _ _ => rcases Store.answer_writeAll h with ⟨-, rfl, -⟩ | ⟨-, rfl⟩ <;> exact .inl hid
      | finalizeUpload _ =>
          rcases Store.answer_finalizeUpload h with ⟨_, -, rfl, -⟩ | ⟨_, -, -, rfl⟩ <;> exact .inl hid
      | abortUpload _ => rcases Store.answer_abortUpload h with ⟨rfl, -⟩ | rfl <;> exact .inl hid
      | deleteAttachment _ =>
          rcases Store.answer_deleteAttachment h with ⟨rfl, -⟩ | rfl <;> exact .inl hid
  | db c =>
      rcases Store.answer_db h with ⟨err, -, rfl, -⟩ | ⟨v, db, -, -, -, rfl⟩ <;> exact .inl hid
  | newV4 =>
      rcases Store.answer_newV4 h with ⟨-, rfl⟩
      rcases List.mem_cons.1 hid with rfl | hid
      · exact .inr rfl
      · exact .inl hid
  | panic => cases h
  | _ =>
      cases h
      exact .inl hid

/-- The file that a call names. -/
def FileCall.path? : FileCall → Option String
  | .beginUpload => none
  | .writeAll id _ | .finalizeUpload id | .abortUpload id | .deleteAttachment id => some id

/-- A file that a request names is one that it has in custody. -/
theorem Held.owned_of_path {g : Held} {c : FileCall} {id : String} (hpre : g.pre (.file c))
    (h : c.path? = some id) : id ∈ g.owned := by
  cases c with
  | beginUpload => cases h
  | writeAll id' chunk =>
      cases h
      rcases hpre with ⟨b, hb⟩
      exact mem_owned_tmp hb
  | finalizeUpload id' =>
      cases h
      rcases hpre with ⟨-, b, hb, -⟩
      exact mem_owned_tmp hb
  | abortUpload id' =>
      cases h
      rcases hpre with ⟨b, hb⟩
      exact mem_owned_tmp hb
  | deleteAttachment id' =>
      cases h
      rcases hpre with hmem | hmem
      · rcases List.mem_map.1 hmem with ⟨f, hf, rfl⟩
        exact mem_owned_files hf
      · exact mem_owned_doomed hmem

/-- Every name that was used was issued. -/
def PathsIssued (tr : Log) (w : Store) : Prop :=
  ∀ i e c r id, .ask i e (.file c) r ∈ tr → c.path? = some id → id ∈ w.issued

theorem PathsIssued.other {tr : Log} {w w' : Store} (h : PathsIssued tr w)
    {ev : Event Reply Env Boot Request Response} (hev : ∀ i e op r, ev ≠ .ask i e op r)
    (hissued : w'.issued = w.issued) : PathsIssued (tr ++ [ev]) w' := by
  intro i e c r id hmem hid
  rw [hissued]
  rcases List.mem_append.1 hmem with hold | hnew
  · exact h i e c r id hold hid
  · exact absurd (List.mem_singleton.1 hnew).symm (hev _ _ _ _)

theorem PathsIssued.ask {tr : Log} {w w' : Store} (h : PathsIssued tr w) {i : ℕ} {g : Held}
    {e : Env} {op : Call} {r : Reply op} (hg : g.Holds w) (hpre : g.pre op)
    (hans : w.answer e op = some (r, w')) : PathsIssued (tr ++ [.ask i e op r]) w' := by
  intro j e' c r' id hmem hid
  refine Store.issued_answer hans id ?_
  rcases List.mem_append.1 hmem with hold | hnew
  · exact h j e' c r' id hold hid
  · cases List.mem_singleton.1 hnew
    exact hg.issued id (Held.owned_of_path hpre hid)

/-! ## Over runs -/

/-- `keeping`, with the origin and the names of all files. -/
def tracing : Outline server (custody False) where
  born := fun _ req => Held.born req
  post := fun _ _ _ => True
  inv := fun tr s gs => Kept tr s.store gs ∧ Provenance tr s.store ∧ PathsIssued tr s.store

theorem tracing_valid : tracing.Valid fun _ _ _ => True where
  handler := keeping_valid.handler
  start := by
    rintro tr c gs i req hg hunused hnone ⟨hkept, h, hpaths⟩
    exact ⟨keeping_valid.start tr c gs i req hg hunused hnone hkept, h.start req hunused,
      hpaths.other (by simp) rfl⟩
  ask := by
    rintro tr c gs i g e op r s' - - hi hpre hans ⟨hkept, h, hpaths⟩
    have hstore := (Server.answer_eq_some hans).1
    exact ⟨g.upd op r, ⟨rfl, False.elim⟩, hkept.ask hi hpre hstore, h.ask hkept hi hpre hstore,
      hpaths.ask (hkept.holds i g hi) hpre hstore⟩
  finish := by
    rintro tr c gs i g req res - - - - ⟨hkept, h, hpaths⟩
    exact ⟨hkept.drop rfl, h.skip rfl (by simp) (fun _ _ hf => hf) fun _ hid => hid,
      hpaths.other (by simp) rfl⟩
  abandon := by
    rintro tr c gs i g - - ⟨hkept, h, hpaths⟩
    exact ⟨hkept.drop rfl, h.skip rfl (by simp) (fun _ _ hf => hf) fun _ hid => hid,
      hpaths.other (by simp) rfl⟩
  reboot := by
    rintro tr c gs b - ⟨hkept, h, hpaths⟩
    exact ⟨hkept.reboot b, h.skip rfl (by simp) (fun _ _ hf => hf) fun _ hid => hid,
      hpaths.other (by simp) rfl⟩

theorem tracing_run {app : AppState} {tr : Log} {c : Pool Reply Server Response}
    (h : server.Run (fun _ _ _ => True) { app, store := .empty } tr c) :
    Listed tr c.shared.store ∧ Provenance tr c.shared.store ∧ PathsIssued tr c.shared.store := by
  have hempty : tracing.inv [] { app, store := .empty } fun _ => none :=
    ⟨Kept.empty, .empty, fun _ _ _ _ _ hmem => absurd hmem List.not_mem_nil⟩
  rcases tracing_valid.run hempty h with ⟨gs, ⟨hkept, hrest⟩, -⟩
  exact ⟨hkept.listed, hrest⟩

end Aardbin
