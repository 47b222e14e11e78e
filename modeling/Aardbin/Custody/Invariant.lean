import Aardbin.Custody.Protocol
import Aardbin.Effect.Ownership
import Aardbin.PlainVendor

/-!
# Custody of files: the invariant of the store

Every attachment row has its file, whatever fails and wherever the process stops: a file is
removed, renamed or overwritten only by the one request that has it in custody, and what is in
custody has no row.
-/

namespace Aardbin

open Effect

/-! ## What the history says about uploads -/

/-- The id that `begin_upload` returns in this event. -/
def begun? : Event Reply Env Boot Request Response → Option String
  | .ask _ _ (.file .beginUpload) (.ok id) => some id
  | _ => none

/-- The ids that `begin_upload` has returned, in order. -/
def begun (tr : Log) : List String :=
  tr.filterMap begun?

/-- The bytes `b` are the content of the file part for which `begin_upload` returned `id`. -/
def Uploaded (tr : Log) (id : String) (b : Bytes) : Prop :=
  ∃ i req, .start i req ∈ tr ∧ (id, b) ∈ (begun (byThread i tr)).zip req.fileBytes

theorem mem_zip_append_left {α β : Type} {x : α × β} {as as' : List α} {bs : List β}
    (h : x ∈ as.zip bs) : x ∈ (as ++ as').zip bs := by
  rcases List.mem_iff_getElem.1 h with ⟨n, hn, hx⟩
  rw [List.length_zip] at hn
  refine List.mem_iff_getElem.2 ⟨n, by simp only [List.length_zip, List.length_append]; omega, ?_⟩
  rw [← hx]
  simp [List.getElem_append_left (show n < as.length by omega)]

theorem Uploaded.mono {tr : Log} {id : String} {b : Bytes} (h : Uploaded tr id b)
    (e : Event Reply Env Boot Request Response) : Uploaded (tr ++ [e]) id b := by
  rcases h with ⟨i, req, hreq, hmem⟩
  refine ⟨i, req, by simp [hreq], ?_⟩
  -- One more id at the end does not move the pairs there are.
  by_cases he : e.thread? = some i
  · rw [byThread_snoc_self he, begun, List.filterMap_append]
    exact mem_zip_append_left hmem
  · rwa [byThread_snoc_other he]

/-! ## What is in custody -/

namespace Held

/-- Everything the request is responsible for. -/
def owned (g : Held) : List String :=
  g.tmp.toList.map (·.1) ++ g.files.map (·.1) ++ g.doomed

theorem mem_owned_tmp {g : Held} {id : String} {b : Bytes} (h : g.tmp = some (id, b)) :
    id ∈ g.owned := by
  simp [owned, h]

theorem mem_owned_files {g : Held} {f : String × Bytes} (h : f ∈ g.files) : f.1 ∈ g.owned := by
  simp only [owned, List.mem_append]
  exact .inl (.inr (List.mem_map_of_mem h))

theorem mem_owned_doomed {g : Held} {id : String} (h : id ∈ g.doomed) : id ∈ g.owned := by
  simp [owned, h]

/-- The store has what the request believes to own, and the database does not know it. -/
structure Holds (w : Store) (g : Held) : Prop where
  tmp : ∀ f, g.tmp = some f → w.files.tmp f.1 = some f.2
  files : ∀ f ∈ g.files, w.files.attachments f.1 = some f.2
  unlisted : ∀ id ∈ g.owned, id ∉ w.db.attachmentIds
  issued : ∀ id ∈ g.owned, id ∈ w.issued
  nodup : g.owned.Nodup

end Held

/-- Every attachment row has its file. -/
def Listed (tr : Log) (w : Store) : Prop :=
  ∀ a ∈ w.db.attachments, a.id ∈ w.issued ∧
    ∃ b, w.files.attachments a.id = some b ∧ a.sizeBytes = b.length ∧ Uploaded tr a.id b

/-- The ghost state remembers what the history says about the request. -/
def Remembers (tr : Log) (i : ℕ) (g : Held) : Prop :=
  g.begun = begun (byThread i tr) ∧ ∃ req, .start i req ∈ tr ∧ g.sent = req.fileBytes

structure Kept (tr : Log) (w : Store) (gs : ℕ → Option Held) : Prop where
  listed : Listed tr w
  holds : Each (fun _ g => g.Holds w) gs
  exclusive : Exclusive Held.owned gs
  remembers : Each (Remembers tr) gs

/-! ## One call -/

/-- Nothing outside the custody of `g` is touched between `w` and `w'`. -/
structure Frame (g : Held) (w w' : Store) : Prop where
  tmp : ∀ id ∈ w.issued, id ∉ g.owned → w'.files.tmp id = w.files.tmp id
  attachments : ∀ id ∈ w.issued, id ∉ g.owned → w'.files.attachments id = w.files.attachments id
  rows : ∀ a ∈ w'.db.attachments, a ∈ w.db.attachments ∨ a.id ∈ g.owned
  issued : ∀ id ∈ w.issued, id ∈ w'.issued

theorem Frame.refl (g : Held) (w : Store) : Frame g w w :=
  ⟨fun _ _ _ => rfl, fun _ _ _ => rfl, fun _ ha => .inl ha, fun _ h => h⟩

theorem frame_exec {g : Held} {w : Store} {c : DbCall} {v : c.Val} {db : Db}
    (hpre : g.pre (.db c)) (h : w.db.exec c = .ok (v, db)) : Frame g w { w with db } := by
  refine ⟨fun _ _ _ => rfl, fun _ _ _ => rfl, fun a ha => ?_, fun _ h => h⟩
  rcases Store.rows_exec h a ha with ha | rfl
  · exact .inl ha
  · rcases hpre with ⟨-, b, hb, -⟩
    exact .inr (Held.mem_owned_files hb)

theorem frame_file {e : Env} {g : Held} {w w' : Store} {c : FileCall} {r : c.Reply}
    (hpre : g.pre (.file c)) (h : w.answerFile e c = some (r, w')) : Frame g w w' := by
  cases c with
  | beginUpload =>
      rcases Store.answer_beginUpload h with ⟨-, rfl, -⟩ | ⟨id', -, hfresh, rfl⟩
      · exact .refl g w'
      · -- Only the new name is written, and it was never handed out before.
        refine ⟨fun id hid _ => ?_, fun _ _ _ => rfl, fun _ ha => .inl ha,
          fun _ hid => List.mem_cons_of_mem _ hid⟩
        have hne : id ≠ id' := by
          rintro rfl
          exact hfresh.issued hid
        simp [FileStore.beginUpload, hne]
  | writeAll id chunk =>
      rcases hpre with ⟨b, hb⟩
      rcases Store.answer_writeAll h with ⟨-, rfl, -⟩ | ⟨-, rfl⟩
      · exact .refl g w'
      · refine ⟨fun id' _ hown => ?_, fun _ _ _ => rfl, fun _ ha => .inl ha, fun _ hid => hid⟩
        have hne : id' ≠ id := by
          rintro rfl
          exact hown (Held.mem_owned_tmp hb)
        simp [FileStore.writeAll, hne]
  | finalizeUpload id =>
      rcases hpre with ⟨-, b, hb, -⟩
      rcases Store.answer_finalizeUpload h with ⟨_, -, rfl, -⟩ | ⟨bytes, -, -, rfl⟩
      · exact .refl g w'
      · -- The rename touches one name in both directories.
        have hne : ∀ id', id' ∉ g.owned → id' ≠ id := by
          rintro id' hown rfl
          exact hown (Held.mem_owned_tmp hb)
        refine ⟨fun id' _ hown => ?_, fun id' _ hown => ?_, fun _ ha => .inl ha,
          fun _ hid => hid⟩
        · simp [hne id' hown]
        · simp [hne id' hown]
  | abortUpload id =>
      rcases hpre with ⟨b, hb⟩
      rcases Store.answer_abortUpload h with ⟨rfl, -⟩ | rfl
      · exact .refl g w'
      · refine ⟨fun id' _ hown => ?_, fun _ _ _ => rfl, fun _ ha => .inl ha, fun _ hid => hid⟩
        have hne : id' ≠ id := by
          rintro rfl
          exact hown (Held.mem_owned_tmp hb)
        simp [FileStore.abortUpload, hne]
  | deleteAttachment id =>
      have hid : id ∈ g.owned := by
        rcases hpre with hmem | hmem
        · rcases List.mem_map.1 hmem with ⟨f, hf, rfl⟩
          exact Held.mem_owned_files hf
        · exact Held.mem_owned_doomed hmem
      rcases Store.answer_deleteAttachment h with ⟨rfl, -⟩ | rfl
      · exact .refl g w'
      · refine ⟨fun _ _ _ => rfl, fun id' _ hown => ?_, fun _ ha => .inl ha, fun _ hid => hid⟩
        have hne : id' ≠ id := by
          rintro rfl
          exact hown hid
        simp [FileStore.deleteAttachment, hne]

/-- A request touches nothing but what it has in custody. -/
theorem frame_answer {e : Env} {g : Held} {w w' : Store} {op : Call} {r : Reply op}
    (hpre : g.pre op) (h : w.answer e op = some (r, w')) : Frame g w w' := by
  cases op with
  | db c =>
      rcases Store.answer_db h with ⟨err, rfl, rfl, -⟩ | ⟨v, db, -, hexec, rfl, rfl⟩
      · exact .refl g w'
      · exact frame_exec hpre hexec
  | file c => exact frame_file hpre h
  | newV4 =>
      rcases Store.answer_newV4 h with ⟨-, rfl⟩
      exact ⟨fun _ _ _ => rfl, fun _ _ _ => rfl, fun _ ha => .inl ha,
        fun _ hid => List.mem_cons_of_mem _ hid⟩
  | panic => cases h
  | _ =>
      cases h
      exact .refl g w

/-! ## The custody of the caller -/

namespace Held

theorem owned_sublist {g g' : Held} (htmp : g'.tmp = none ∨ g'.tmp = g.tmp)
    (hfiles : g'.files.Sublist g.files) (hdoomed : g'.doomed.Sublist g.doomed) :
    g'.owned.Sublist g.owned := by
  refine ((List.Sublist.map _ ?_).append (hfiles.map _)).append hdoomed
  rcases htmp with hn | hs
  · simp [hn]
  · rw [hs]

/-- Giving up part of the custody. -/
theorem Holds.shrink {w : Store} {g g' : Held} (h : g.Holds w)
    (htmp : g'.tmp = none ∨ g'.tmp = g.tmp) (hfiles : g'.files.Sublist g.files)
    (hdoomed : g'.doomed.Sublist g.doomed) : g'.Holds w := by
  have htmp' : ∀ f, g'.tmp = some f → g.tmp = some f := by
    intro f hf
    rcases htmp with hn | hs
    · simp [hn] at hf
    · exact hs ▸ hf
  have hsub : g'.owned.Sublist g.owned := owned_sublist htmp hfiles hdoomed
  exact ⟨fun f hf => h.tmp f (htmp' f hf), fun f hf => h.files f (hfiles.subset hf),
    fun id hid => h.unlisted id (hsub.subset hid), fun id hid => h.issued id (hsub.subset hid),
    h.nodup.sublist hsub⟩

/-- Others act, without touching what is in custody. -/
theorem Holds.frame {w w' : Store} {g g' : Held} (h : g'.Holds w) (hframe : Frame g w w')
    (hapart : g'.owned.Disjoint g.owned) : g'.Holds w' := by
  have hout : ∀ id ∈ g'.owned, id ∉ g.owned := fun id hid hid' => hapart hid hid'
  refine ⟨fun f hf => ?_, fun f hf => ?_, fun id hid => ?_, fun id hid => ?_, h.nodup⟩
  · have hown : f.1 ∈ g'.owned := mem_owned_tmp (b := f.2) hf
    rw [hframe.tmp _ (h.issued _ hown) (hout _ hown)]
    exact h.tmp f hf
  · have hown : f.1 ∈ g'.owned := mem_owned_files hf
    rw [hframe.attachments _ (h.issued _ hown) (hout _ hown)]
    exact h.files f hf
  · intro hmem
    rcases List.mem_map.1 hmem with ⟨a, ha, rfl⟩
    rcases hframe.rows a ha with ha' | ha'
    · exact h.unlisted _ hid (List.mem_map_of_mem ha')
    · exact hout _ hid ha'
  · exact hframe.issued _ (h.issued _ hid)

/-- A database call that adds no attachment row. -/
theorem Holds.ofDb {w : Store} {g : Held} (h : g.Holds w) {db : Db}
    (hrows : ∀ a ∈ db.attachments, a ∈ w.db.attachments) : g.Holds { w with db } := by
  refine ⟨h.tmp, h.files, fun id hid hmem => ?_, h.issued, h.nodup⟩
  rcases List.mem_map.1 hmem with ⟨a, ha, rfl⟩
  exact h.unlisted _ hid (List.mem_map_of_mem (hrows a ha))

/-- Rows are deleted, and their files become the request's to remove. -/
theorem Holds.doom {w : Store} {g : Held} (h : g.Holds w) {db : Db} {ids : List String}
    (hrows : ∀ a ∈ db.attachments, a ∈ w.db.attachments) (hids : ids.Nodup)
    (hlisted : ∀ id ∈ ids, id ∈ w.db.attachmentIds) (hissued : ∀ id ∈ ids, id ∈ w.issued)
    (hgone : ∀ id ∈ ids, id ∉ db.attachmentIds) :
    ({ g with doomed := g.doomed ++ ids } : Held).Holds { w with db } := by
  have hdb := h.ofDb hrows
  have howned : ({ g with doomed := g.doomed ++ ids } : Held).owned = g.owned ++ ids := by
    simp [owned]
  refine ⟨h.tmp, h.files, ?_, ?_, ?_⟩
  · intro id hid
    rcases List.mem_append.1 (howned ▸ hid) with hmem | hmem
    · exact hdb.unlisted id hmem
    · exact hgone id hmem
  · intro id hid
    rcases List.mem_append.1 (howned ▸ hid) with hmem | hmem
    · exact h.issued id hmem
    · exact hissued id hmem
  · rw [howned]
    refine h.nodup.append hids ?_
    intro id hid hid'
    exact h.unlisted id hid (hlisted id hid')

theorem map_eraseP_fst (fs : List (String × Bytes)) (id : String) :
    (fs.eraseP fun f => f.1 = id).map (·.1) = (fs.map (·.1)).erase id := by
  induction fs with
  | nil => rfl
  | cons f rest ih =>
      by_cases hf : f.1 = id
      · simp [hf]
      · simp [hf, ih]

/-- A file in custody is there once: neither another upload nor the temp file has its id. -/
theorem Holds.erased {w : Store} {g : Held} (h : g.Holds w) (id : String)
    (hid : id ∈ g.files.map (·.1) ∨ id ∈ g.doomed) :
    id ∉ ({ g with
      files := g.files.eraseP fun f => f.1 = id, doomed := g.doomed.erase id } : Held).owned := by
  have hnodup := h.nodup
  simp only [owned, List.nodup_append, List.mem_append] at hnodup
  rcases hnodup with ⟨⟨-, hfiles, htmp⟩, hdoomed, hrest⟩
  simp only [owned, List.mem_append, map_eraseP_fst, not_or]
  refine ⟨⟨?_, hfiles.not_mem_erase⟩, hdoomed.not_mem_erase⟩
  intro hmem
  rcases hid with hf | hd
  · exact htmp id hmem id hf rfl
  · exact hrest id (.inl hmem) id hd rfl

theorem upd_error (g : Held) (c : DbCall) (e : DbError) :
    ∃ gone, g.upd (.db c) (.error e) = { g with gone } := by
  cases c <;> exact ⟨_, rfl⟩

end Held

/-- What a successful database call does to the custody of its caller. -/
theorem holds_exec {tr : Log} {g : Held} {w : Store} {c : DbCall} {v : c.Val} {db : Db}
    (hlisted : Listed tr w) (hg : g.Holds w) (hpre : g.pre (.db c))
    (h : w.db.exec c = .ok (v, db)) : (g.upd (.db c) (.ok v)).Holds { w with db } := by
  have hissued : ∀ id ∈ w.db.attachmentIds, id ∈ w.issued := by
    intro id hid
    rcases List.mem_map.1 hid with ⟨a, ha, rfl⟩
    exact (hlisted a ha).1
  cases c with
  | createRecord id blob now =>
      have hrows := (Db.createRecord_eq_ok (Db.of_exec_createRecord h)).2.2
      exact (hg.ofDb fun a ha => hrows ▸ ha).shrink (.inr rfl) (.refl _) (.refl _)
  | updateRecord id blob now =>
      have hdb : g.Holds { w with db } := by
        cases h
        exact hg.ofDb fun a ha => ha
      cases v with
      | false => exact hdb
      | true => exact hdb.shrink (.inr rfl) (.refl _) (.refl _)
  | insertAttachment a =>
      have hdb := Db.of_exec_insertAttachment h
      rcases hpre with ⟨-, b, hb, -⟩
      have hmem : a.id ∈ g.files.map (·.1) := List.mem_map_of_mem hb
      have hkept : ({ g with files := g.files.eraseP fun f => f.1 = a.id } : Held).Holds w :=
        hg.shrink (.inr rfl) List.eraseP_sublist (.refl _)
      -- The file leaves the custody at the moment its row appears.
      have hgone : a.id ∉ (g.upd (.db (.insertAttachment a)) (.ok ())).owned := by
        have hnot := hg.erased a.id (.inl hmem)
        rwa [List.erase_of_not_mem] at hnot
        intro hd
        have hnodup := hg.nodup
        simp only [Held.owned, List.nodup_append, List.mem_append] at hnodup
        exact hnodup.2.2 a.id (.inr hmem) a.id hd rfl
      refine ⟨hkept.tmp, hkept.files, fun id hid => ?_, hkept.issued, hkept.nodup⟩
      have hne : id ≠ a.id := by
        rintro rfl
        exact hgone hid
      simp only [Db.attachmentIds, (Db.insertAttachment_eq_ok hdb).2.2.2, List.map_append,
        List.map_cons, List.map_nil, List.mem_append, List.mem_singleton, not_or]
      exact ⟨hkept.unlisted id hid, hne⟩
  | deleteRecord id =>
      simp only [Db.exec, Except.ok.injEq] at h
      rcases v with _ | ids
      · rw [(Db.deleteRecord_eq_none h).2]
        exact hg
      · -- The cascaded rows come into custody: they had files, and are rows no more.
        rcases Db.deleteRecord_eq_some h with ⟨-, rfl, -, hrows⟩
        have hmem : ∀ a ∈ db.attachments, a ∈ w.db.attachments ∧ a.recordId ≠ id := by
          intro a ha
          rw [hrows] at ha
          simpa using ha
        have hsub : ∀ id' ∈ (w.db.attachments.filter fun a => a.recordId = id).map (·.id),
            id' ∈ w.db.attachmentIds := fun id' hid => (List.filter_sublist.map _).subset hid
        refine hg.doom (fun a ha => (hmem a ha).1)
          (w.db.attachmentsKey.sublist (List.filter_sublist.map _)) hsub
          (fun id' hid => hissued id' (hsub id' hid)) ?_
        intro id' hid hid'
        rcases List.mem_map.1 hid with ⟨a, ha, rfl⟩
        rcases List.mem_map.1 hid' with ⟨a', ha', haa'⟩
        rcases List.mem_filter.1 ha with ⟨ha, har⟩
        rw [Db.eq_of_attachment_id (hmem a' ha').1 ha haa'] at ha'
        exact (hmem a ha').2 (by simpa using har)
  | deleteAttachment recordId attachmentId =>
      simp only [Db.exec, Except.ok.injEq] at h
      rcases v with _ | row
      · rw [Db.deleteAttachment_eq_none h]
        exact hg
      · rcases Db.deleteAttachment_eq_some h with ⟨hrow, rfl, rfl, -, hrows⟩
        have hmem : ∀ a ∈ db.attachments, a ∈ w.db.attachments ∧ a ≠ row := by
          intro a ha
          rw [hrows] at ha
          simp only [List.mem_filter, decide_eq_true_eq] at ha
          refine ⟨ha.1, ?_⟩
          rintro rfl
          exact ha.2 ⟨rfl, rfl⟩
        have hlist : row.id ∈ w.db.attachmentIds := List.mem_map_of_mem hrow
        refine hg.doom (fun a ha => (hmem a ha).1) (List.nodup_singleton _) (by simpa using hlist)
          (by simpa using hissued _ hlist) ?_
        intro id hid hid'
        rcases List.mem_map.1 hid' with ⟨a, ha, haid⟩
        rw [List.mem_singleton] at hid
        exact (hmem a ha).2 (Db.eq_of_attachment_id (hmem a ha).1 hrow (haid.trans hid))
  | attachmentsForRecords ids =>
      rw [(Db.of_exec_attachmentsForRecords h).2]
      exact hg
  | _ =>
      cases h
      exact hg.ofDb fun a ha => ha

/-- What a file call does to the custody of its caller. -/
theorem holds_file {e : Env} {g : Held} {w w' : Store} {c : FileCall} {r : c.Reply}
    (hg : g.Holds w) (hpre : g.pre (.file c)) (h : w.answerFile e c = some (r, w')) :
    (g.upd (.file c) r).Holds w' := by
  cases c with
  | beginUpload =>
      rcases Store.answer_beginUpload h with ⟨rfl, rfl, -⟩ | ⟨id', rfl, hfresh, rfl⟩
      · exact hg
      · -- Whatever is in custody was issued, and the new id was not.
        have hnew : id' ∉ g.owned := fun hid => hfresh.issued (hg.issued _ hid)
        have howned : (g.upd (.file .beginUpload) (.ok id')).owned = id' :: g.owned := by
          have htmp : g.tmp = none := hpre
          simp [Held.owned, Held.upd, Held.updFile, htmp]
        refine ⟨?_, hg.files, ?_, ?_, ?_⟩
        · intro f hf
          simp only [Held.upd, Held.updFile, Option.some.injEq] at hf
          subst hf
          simp [FileStore.beginUpload]
        · intro id hid
          rcases List.mem_cons.1 (howned ▸ hid) with rfl | hid
          · exact hfresh.attachment
          · exact hg.unlisted id hid
        · intro id hid
          rcases List.mem_cons.1 (howned ▸ hid) with rfl | hid
          · exact List.mem_cons_self
          · exact List.mem_cons_of_mem _ (hg.issued id hid)
        · rw [howned]
          exact List.nodup_cons.2 ⟨hnew, hg.nodup⟩
  | writeAll id chunk =>
      rcases hpre with ⟨b, hb⟩
      rcases Store.answer_writeAll h with ⟨rfl, rfl, -⟩ | ⟨rfl, rfl⟩
      · exact hg
      · have howned : (g.upd (.file (.writeAll id chunk)) (.ok ())).owned = g.owned := by
          simp [Held.owned, Held.upd, Held.updFile, hb]
        refine ⟨?_, hg.files, ?_, ?_, ?_⟩
        · intro f hf
          simp only [Held.upd, Held.updFile, hb, Option.map_some, Option.some.injEq] at hf
          subst hf
          simp [FileStore.writeAll, hg.tmp _ hb]
        · exact howned ▸ hg.unlisted
        · exact howned ▸ hg.issued
        · exact howned ▸ hg.nodup
  | finalizeUpload id =>
      rcases hpre with ⟨-, b, hb, -⟩
      rcases Store.answer_finalizeUpload h with ⟨_, rfl, rfl, -⟩ | ⟨bytes, hbytes, rfl, rfl⟩
      · exact hg
      · obtain rfl : b = bytes := Option.some.inj ((hg.tmp _ hb).symm.trans hbytes)
        -- The upload moves from the temp file to the files; the custody stays the same.
        have howned : (g.upd (.file (.finalizeUpload id)) (.ok b.length)).owned.Perm g.owned := by
          simp only [Held.owned, Held.upd, Held.updFile, hb, Option.toList_none, Option.toList_some,
            List.map_append, List.map_nil, List.nil_append]
          exact List.perm_append_comm.append_right _
        have hnot : ∀ f ∈ g.files, f.1 ≠ id := by
          rintro f hf rfl
          have hnodup := hg.nodup
          simp only [Held.owned, hb, List.nodup_append] at hnodup
          exact hnodup.1.2.2 f.1 (by simp) f.1 (List.mem_map_of_mem hf) rfl
        refine ⟨by simp [Held.upd, Held.updFile], ?_, ?_, ?_, howned.nodup_iff.2 hg.nodup⟩
        · intro f hf
          simp only [Held.upd, Held.updFile, hb, Option.toList_some, List.mem_append, List.mem_singleton] at hf
          rcases hf with hf | rfl
          · simp [hnot f hf, hg.files f hf]
          · simp
        · exact fun id' hid => hg.unlisted id' (howned.subset hid)
        · exact fun id' hid => hg.issued id' (howned.subset hid)
  | abortUpload id =>
      have hkept : (g.upd (.file (.abortUpload id)) r).Holds w :=
        hg.shrink (.inl rfl) (.refl _) (.refl _)
      rcases Store.answer_abortUpload h with ⟨rfl, -⟩ | rfl
      · exact hkept
      · exact ⟨by simp [Held.upd, Held.updFile], hkept.files, hkept.unlisted, hkept.issued, hkept.nodup⟩
  | deleteAttachment id =>
      have hkept : (g.upd (.file (.deleteAttachment id)) r).Holds w :=
        hg.shrink (.inr rfl) List.eraseP_sublist List.erase_sublist
      rcases Store.answer_deleteAttachment h with ⟨rfl, -⟩ | rfl
      · exact hkept
      · refine ⟨hkept.tmp, fun f hf => ?_, hkept.unlisted, hkept.issued, hkept.nodup⟩
        have hne : f.1 ≠ id := by
          rintro rfl
          exact hg.erased f.1 hpre (Held.mem_owned_files hf)
        simpa [FileStore.deleteAttachment, hne] using hkept.files f hf

theorem holds_answer {tr : Log} {e : Env} {g : Held} {w w' : Store} {op : Call} {r : Reply op}
    (hlisted : Listed tr w) (hg : g.Holds w) (hpre : g.pre op)
    (h : w.answer e op = some (r, w')) : (g.upd op r).Holds w' := by
  have hframe : Frame g w w' := frame_answer hpre h
  cases op with
  | db c =>
      rcases Store.answer_db h with ⟨err, rfl, rfl, -⟩ | ⟨v, db, -, hexec, rfl, rfl⟩
      · rcases g.upd_error c err with ⟨gone, hupd⟩
        rw [hupd]
        exact hg.shrink (.inr rfl) (.refl _) (.refl _)
      · exact holds_exec hlisted hg hpre hexec
  | file c => exact holds_file hg hpre h
  | newV4 =>
      rcases Store.answer_newV4 h with ⟨-, rfl⟩
      exact ⟨hg.tmp, hg.files, hg.unlisted, fun id hid => List.mem_cons_of_mem _ (hg.issued id hid),
        hg.nodup⟩
  | panic => cases h
  | _ =>
      cases h
      exact hg

theorem owned_exec {g : Held} {w : Store} {c : DbCall} {v : c.Val} {db : Db}
    (h : w.db.exec c = .ok (v, db)) :
    ∀ id ∈ (g.upd (.db c) (.ok v)).owned, id ∈ g.owned ∨ id ∈ w.db.attachmentIds := by
  intro id hid
  cases c with
  | updateRecord id' blob now => cases v <;> exact .inl hid
  | insertAttachment a =>
      have hsub : (g.upd (.db (.insertAttachment a)) (.ok v)).owned.Sublist g.owned :=
        Held.owned_sublist (.inr rfl) List.eraseP_sublist (.refl _)
      exact .inl (hsub.subset hid)
  | deleteRecord id' =>
      simp only [Db.exec, Except.ok.injEq] at h
      rcases v with _ | ids
      · exact .inl hid
      · -- The deleted rows hand over their files, whose ids they listed.
        rcases Db.deleteRecord_eq_some h with ⟨-, rfl, -, -⟩
        simp only [Held.owned, Held.upd, Held.updDb, ← List.append_assoc] at hid
        rcases List.mem_append.1 hid with hid | hid
        · exact .inl hid
        · exact .inr ((List.filter_sublist.map _).subset hid)
  | deleteAttachment recordId attachmentId =>
      simp only [Db.exec, Except.ok.injEq] at h
      rcases v with _ | row
      · exact .inl hid
      · rcases Db.deleteAttachment_eq_some h with ⟨hrow, rfl, -⟩
        simp only [Held.owned, Held.upd, Held.updDb, ← List.append_assoc] at hid
        rcases List.mem_append.1 hid with hid | hid
        · exact .inl hid
        · rw [List.mem_singleton.1 hid]
          exact .inr (List.mem_map_of_mem hrow)
  | _ => exact .inl hid

/-- What a call brings into custody was in nobody's custody before. -/
theorem owned_answer {e : Env} {g : Held} {w w' : Store} {op : Call} {r : Reply op}
    (hpre : g.pre op) (h : w.answer e op = some (r, w')) :
    ∀ id ∈ (g.upd op r).owned, id ∈ g.owned ∨ id ∉ w.issued ∨ id ∈ w.db.attachmentIds := by
  intro id hid
  cases op with
  | db c =>
      rcases Store.answer_db h with ⟨err, rfl, rfl, -⟩ | ⟨v, db, -, hexec, rfl, rfl⟩
      · rcases g.upd_error c err with ⟨gone, hupd⟩
        rw [hupd] at hid
        exact .inl hid
      · rcases owned_exec hexec id hid with hown | hrow
        · exact .inl hown
        · exact .inr (.inr hrow)
  | file c =>
      cases c with
      | beginUpload =>
          rcases Store.answer_beginUpload h with ⟨rfl, rfl, -⟩ | ⟨id', rfl, hfresh, rfl⟩
          · exact .inl hid
          · simp only [Held.owned, Held.upd, Held.updFile, Option.toList_some, List.map_cons, List.map_nil,
              List.cons_append, List.nil_append, List.mem_cons] at hid
            rcases hid with rfl | hid
            · -- The id of the new upload.
              exact .inr (.inl hfresh.issued)
            · exact .inl (by simp only [Held.owned, List.append_assoc, List.mem_append] at hid ⊢
                             exact .inr hid)
      | writeAll id' chunk =>
          rcases hpre with ⟨b, hb⟩
          cases r with
          | error err => exact .inl hid
          | ok _ => exact .inl (by simpa [Held.owned, Held.upd, Held.updFile, hb] using hid)
      | finalizeUpload id' =>
          rcases hpre with ⟨-, b, hb, -⟩
          cases r with
          | error err => exact .inl hid
          | ok size =>
              -- The upload only moves from the temporary to the finished files.
              refine .inl ?_
              simp only [Held.owned, Held.upd, Held.updFile, hb, Option.toList_none, Option.toList_some,
                List.map_append, List.map_nil, List.nil_append, List.mem_append] at hid ⊢
              rcases hid with (hid | hid) | hid
              · exact .inl (.inr hid)
              · exact .inl (.inl hid)
              · exact .inr hid
      | abortUpload id' =>
          have hsub : (g.upd (.file (.abortUpload id')) r).owned.Sublist g.owned :=
            Held.owned_sublist (.inl rfl) (.refl _) (.refl _)
          exact .inl (hsub.subset hid)
      | deleteAttachment id' =>
          have hsub : (g.upd (.file (.deleteAttachment id')) r).owned.Sublist g.owned :=
            Held.owned_sublist (.inr rfl) List.eraseP_sublist List.erase_sublist
          exact .inl (hsub.subset hid)
  | _ => exact .inl hid

/-! ## Rows keep their files -/

/-- A call of one request keeps every row's file, and gives one to every row it inserts. -/
theorem listed_answer {tr : Log} {i : ℕ} {e : Env} {g : Held} {w w' : Store} {op : Call}
    {r : Reply op} (hlisted : Listed tr w) (hg : g.Holds w) (hrem : Remembers tr i g)
    (hpre : g.pre op) (h : w.answer e op = some (r, w')) :
    Listed (tr ++ [.ask i e op r]) w' := by
  have hframe : Frame g w w' := frame_answer hpre h
  -- A row that was there before has nothing in anybody's custody.
  have hold : ∀ a ∈ w.db.attachments, a.id ∈ w'.issued ∧ ∃ b,
      w'.files.attachments a.id = some b ∧ a.sizeBytes = b.length ∧
        Uploaded (tr ++ [.ask i e op r]) a.id b := by
    intro a ha
    rcases hlisted a ha with ⟨hissued, b, hfile, hsize, hup⟩
    have hout : a.id ∉ g.owned := fun hid => hg.unlisted _ hid (List.mem_map_of_mem ha)
    refine ⟨hframe.issued _ hissued, b, ?_, hsize, hup.mono _⟩
    rw [hframe.attachments _ hissued hout]
    exact hfile
  intro a ha
  rcases Store.rows_answer h a ha with ha' | rfl
  · exact hold a ha'
  · -- A new row: its file was in custody.
    rcases hpre with ⟨-, b, hb, hzip, hsize⟩
    rcases hrem with ⟨hbegun, req, hreq, hsent⟩
    have hown : a.id ∈ g.owned := Held.mem_owned_files hb
    refine ⟨hframe.issued _ (hg.issued _ hown), b, ?_, hsize, ?_⟩
    · have hfiles : w'.files = w.files := by
        rcases Store.answer_db h with ⟨err, -, rfl, -⟩ | ⟨v, db, -, -, -, rfl⟩ <;> rfl
      rw [hfiles]
      exact hg.files _ hb
    · exact Uploaded.mono ⟨i, req, hreq, by rwa [← hbegun, ← hsent]⟩ _

theorem begun_upd (g : Held) (i : ℕ) (e : Env) (op : Call) (r : Reply op) :
    (g.upd op r).begun = g.begun ++ (begun? (.ask i e op r)).toList := by
  cases op with
  | file c =>
      cases c with
      | beginUpload => cases r <;> simp [Held.upd, Held.updFile, begun?]
      | writeAll id chunk => cases r <;> simp [Held.upd, Held.updFile, begun?]
      | finalizeUpload id => cases r <;> simp [Held.upd, Held.updFile, begun?]
      | _ => simp [Held.upd, Held.updFile, begun?]
  | db c => simp [Held.upd, begun?]
  | _ => simp [Held.upd, begun?]

theorem begun_snoc (tr : Log) (e : Event Reply Env Boot Request Response) :
    begun (tr ++ [e]) = begun tr ++ (begun? e).toList := by
  cases h : begun? e <;> simp [begun, h]

theorem remembers_ask {tr : Log} {i : ℕ} {e : Env} {g : Held} {op : Call} {r : Reply op}
    (h : Remembers tr i g) : Remembers (tr ++ [.ask i e op r]) i (g.upd op r) := by
  rcases h with ⟨hbegun, req, hreq, hsent⟩
  refine ⟨?_, req, by simp [hreq], (g.sent_upd op r).trans hsent⟩
  rw [byThread_snoc_self rfl, begun_snoc, begun_upd g i e, hbegun]

theorem Remembers.other {tr : Log} {i : ℕ} {g : Held} (h : Remembers tr i g)
    {e : Event Reply Env Boot Request Response} (he : e.thread? ≠ some i) :
    Remembers (tr ++ [e]) i g := by
  rcases h with ⟨hbegun, req, hreq, hsent⟩
  exact ⟨by rwa [byThread_snoc_other he], req, by simp [hreq], hsent⟩

theorem Listed.mono {tr : Log} {w : Store} (h : Listed tr w)
    (e : Event Reply Env Boot Request Response) : Listed (tr ++ [e]) w := by
  intro a ha
  rcases h a ha with ⟨hissued, b, hfile, hsize, hup⟩
  exact ⟨hissued, b, hfile, hsize, hup.mono e⟩

/-! ## The invariant over runs -/

namespace Kept

variable {tr : Log} {w : Store} {gs : ℕ → Option Held}

theorem empty : Kept [] .empty fun _ => none :=
  ⟨by simp [Listed, Store.empty], .idle, .idle, .idle⟩

theorem start (h : Kept tr w gs) {i : ℕ} (req : Request) (hi : Outline.Unused i tr) :
    Kept (tr ++ [.start i req]) w (Function.update gs i (some (Held.born req))) := by
  refine ⟨h.listed.mono _, h.holds.set ?_ fun _ _ _ _ hg => hg, h.exclusive.set ?_,
    h.remembers.set ?_ ?_⟩
  · exact ⟨by simp [Held.born], by simp [Held.born], by simp [Held.owned, Held.born],
      by simp [Held.owned, Held.born], by simp [Held.owned, Held.born]⟩
  · intro j g _ _
    simp [Held.owned, Held.born]
  · refine ⟨?_, req, by simp, rfl⟩
    rw [byThread_snoc_self rfl, hi.byThread]
    rfl
  · intro j g hj _ hg
    exact hg.other (by simpa [Event.thread?] using Ne.symm hj)

theorem ask (h : Kept tr w gs) {i : ℕ} {g : Held} {e : Env} {op : Call} {r : Reply op}
    {w' : Store} (hi : gs i = some g) (hpre : g.pre op) (hans : w.answer e op = some (r, w')) :
    Kept (tr ++ [.ask i e op r]) w' (Function.update gs i (some (g.upd op r))) := by
  have hg : g.Holds w := h.holds i g hi
  have hframe : Frame g w w' := frame_answer hpre hans
  refine ⟨listed_answer h.listed hg (h.remembers i g hi) hpre hans,
    h.holds.set (holds_answer h.listed hg hpre hans) ?_, h.exclusive.set ?_,
    h.remembers.set (remembers_ask (h.remembers i g hi)) ?_⟩
  · -- The others keep what they hold, since their custody is apart.
    intro j g' hj hgj hg'
    exact hg'.frame hframe (h.exclusive j i g' g hj hgj hi)
  · -- What the call brings into custody was in nobody else's.
    intro j g' hj hgj id hid hid'
    have hg' : g'.Holds w := h.holds j g' hgj
    rcases owned_answer hpre hans id hid with hown | hnew | hrow
    · exact h.exclusive j i g' g hj hgj hi hid' hown
    · exact hnew (hg'.issued id hid')
    · exact hg'.unlisted id hid' hrow
  · intro j g' hj _ hg'
    exact hg'.other (by simpa [Event.thread?] using Ne.symm hj)

/-- A request ends or is abandoned: what it had in custody is nobody's. -/
theorem drop (h : Kept tr w gs) {i : ℕ} {e : Event Reply Env Boot Request Response}
    (he : e.thread? = some i) : Kept (tr ++ [e]) w (Function.update gs i none) := by
  refine ⟨h.listed.mono e, h.holds.drop fun _ _ _ _ hg => hg, h.exclusive.drop,
    h.remembers.drop ?_⟩
  intro j g hj _ hg
  refine hg.other ?_
  rw [he]
  simpa using Ne.symm hj

theorem reboot (h : Kept tr w gs) (b : Boot) :
    Kept (tr ++ [.reboot b]) { w with files := w.files.orphanScan b.stuck } fun _ => none :=
  ⟨h.listed.mono (.reboot b), .idle, .idle, .idle⟩

end Kept

/-- The proof outline: custody of one request, the invariant of the store. -/
def keeping : Outline server (custody False) where
  born := fun _ req => Held.born req
  post := fun _ _ _ => True
  inv := fun tr s gs => Kept tr s.store gs

theorem keeping_valid : keeping.Valid fun _ _ _ => True where
  handler := by
    intro s req
    exact wp_mono (wp_handle s.app req) fun _ _ _ => trivial
  start := by
    intro tr c gs i req _ hunused _ h
    exact h.start req hunused
  ask := by
    intro tr c gs i g e op r s' _ _ hi hpre hans h
    exact ⟨g.upd op r, ⟨rfl, False.elim⟩, h.ask hi hpre (Server.answer_eq_some hans).1⟩
  finish := by
    intro tr c gs i g req res _ _ _ _ h
    exact h.drop rfl
  abandon := by
    intro tr c gs i g _ _ h
    exact h.drop rfl
  reboot := by
    intro tr c gs b _ h
    exact h.reboot b

/-- No dangling attachment row, ever: whatever interleaving, failing calls, abandoned requests and
restarts a run has, each row names an existing file with exactly the bytes uploaded for its id. -/
theorem row_has_uploaded_file (app : AppState) {tr : Log} {c : Pool Reply Server Response}
    (h : server.Run (fun _ _ _ => True) { app, store := .empty } tr c) :
    ∀ a ∈ c.shared.store.db.attachments, ∃ b,
      c.shared.store.files.attachments a.id = some b ∧ Uploaded tr a.id b ∧
        a.sizeBytes = b.length := by
  have hempty : keeping.inv [] { app, store := .empty } fun _ => none := Kept.empty
  rcases keeping_valid.run hempty h with ⟨gs, hkept, -, -⟩
  intro a ha
  rcases Kept.listed hkept a ha with ⟨-, b, hfile, hsize, hup⟩
  exact ⟨b, hfile, hup, hsize⟩

/-- A run with a finished upload, a failing call, an abandoned upload and a restart. -/
theorem row_has_uploaded_file_run : ∃ tr c,
    server.Run (fun _ _ _ => True) { app := .plain, store := .empty } tr c ∧
      c.shared.store.db.attachmentIds = ["f1"] ∧
      ∀ a ∈ c.shared.store.db.attachments, ∃ b,
        c.shared.store.files.attachments a.id = some b ∧ Uploaded tr a.id b ∧
          a.sizeBytes = b.length := by
  have hplay : ∃ tr c, server.Run (fun _ _ _ => True) { app := .plain, store := .empty } tr c ∧
      c.shared.store.db.attachmentIds = ["f1"] := by
    refine Service.exists_run (.start (.create noHeaders (form "a" "b" [[1, 2, 3]])) ::
      stepsOf 0 [{ uuid := "f1" }, {}, {}, { uuid := "r1" }, {}, {}, {}, {}, {}, {}] ++
      .start (.update "r1" noHeaders (form "c" "d" [[4], [5]])) ::
      stepsOf 1 [{}, { uuid := "f2" }, {}, {}, { uuid := "f3" }, { fault := true }] ++
      [.abandon 1, .reboot { cfg := AppState.plain.cfg, stuck := fun _ => false }]) ?_
    decide
  rcases hplay with ⟨tr, c, hrun, hids⟩
  exact ⟨tr, c, hrun, hids, row_has_uploaded_file _ hrun⟩

end Aardbin
