import Aardbin.Bin.Reads
import Aardbin.Isolation

/-!
# What a request leaves alone in the bin

A step of the specification that is not addressed to a record keeps that record and its files.  So
what has been stored stays until its own record is written to.
-/

namespace Aardbin

open Effect

namespace Bin

/-! ## Records that stay -/

/-- The same record and the same files under `id`. -/
structure SameAt (id : String) (b b' : Bin) : Prop where
  records : b'.records id = b.records id
  files : ∀ x f, f.recordId = id → (b'.files x = some f ↔ b.files x = some f)

namespace SameAt

variable {id : String} {b b' : Bin}

theorem refl (b : Bin) : SameAt id b b :=
  ⟨rfl, fun _ _ _ => Iff.rfl⟩

theorem setRecord {id' : String} (hne : id' ≠ id) (r : Record) : SameAt id b (b.setRecord id' r) :=
  ⟨by simp [Bin.setRecord, hne.symm], fun _ _ _ => Iff.rfl⟩

theorem trans {b'' : Bin} (h : SameAt id b b') (h' : SameAt id b' b'') : SameAt id b b'' :=
  ⟨h'.records.trans h.records, fun x f hf => (h'.files x f hf).trans (h.files x f hf)⟩

theorem addFiles {id' : String} {us : List (String × Attachment)} (hne : id' ≠ id)
    (hnodup : (us.map Prod.fst).Nodup) (hfresh : ∀ u ∈ us, b.files u.1 = none)
    (howner : ∀ u ∈ us, u.2.recordId = id') : SameAt id b (b.addFiles us) := by
  refine ⟨by rw [records_addFiles], fun x f hf => ?_⟩
  rw [files_addFiles hnodup]
  constructor
  · rintro (hmem | ⟨-, h⟩)
    · exact absurd ((howner _ hmem).symm.trans hf) hne
    · exact h
  · intro h
    refine .inr ⟨fun hmem => ?_, h⟩
    rcases List.mem_map.1 hmem with ⟨u, hu, rfl⟩
    rw [hfresh u hu] at h
    cases h

theorem deleteRecord {id' : String} (hne : id' ≠ id) : SameAt id b (b.deleteRecord id') := by
  refine ⟨by simp [Bin.deleteRecord, hne.symm], fun x f hf => ?_⟩
  have hkeep : decide (f.recordId ≠ id') = true := by
    rw [hf]
    exact decide_eq_true hne.symm
  rw [Bin.deleteRecord, Option.filter_eq_some_iff]
  exact ⟨fun h => h.1, fun h => ⟨h, hkeep⟩⟩

theorem deleteFile {x : String} {f : Attachment} (hfile : b.files x = some f)
    (hne : f.recordId ≠ id) : SameAt id b (b.deleteFile x) := by
  refine ⟨rfl, fun y g hg => ?_⟩
  by_cases hy : y = x
  · subst hy
    simp only [Bin.deleteFile, Function.update_self, reduceCtorEq, hfile, Option.some.injEq,
      false_iff]
    rintro rfl
    exact hne hg
  · simp [Bin.deleteFile, hy]

theorem touch {id' : String} (hne : id' ≠ id) (ts : Int) : SameAt id b (b.touch id' ts) :=
  ⟨by simp [Bin.touch, hne.symm], fun _ _ _ => Iff.rfl⟩

end SameAt

variable {s : AppState} {calm : Prop} {b b' : Bin} {headers : HeaderMap} {parts : Multipart}
  {resp : Response} {id : String}

theorem Uploads.owner {recordId : String} {ts : Int} {us : List (String × Attachment)}
    (h : Uploads s parts b recordId ts us) : ∀ u ∈ us, u.2.recordId = recordId := by
  intro u hu
  have hmem : u.2 ∈ (fileParts parts).map (Part.stored s recordId ts) := by
    rw [← h.stored]
    exact List.mem_map_of_mem hu
  rcases List.mem_map.1 hmem with ⟨p, -, hp⟩
  rw [← hp]
  rfl

/-- The files of a form belong to no record but its own. -/
theorem Uploads.sameAt {recordId : String} {ts : Int} {us after : List (String × Attachment)}
    (h : Uploads s parts b recordId ts (us ++ after)) (hne : recordId ≠ id) (r : Record) :
    SameAt id b ((b.setRecord recordId r).addFiles us) := by
  have hnodup := h.nodup
  rw [List.map_append] at hnodup
  refine (SameAt.setRecord hne r).trans (SameAt.addFiles hne hnodup.of_append_left ?_ ?_)
  · exact fun u hu => h.fresh u (List.mem_append_left _ hu)
  · exact fun u hu => h.owner u (List.mem_append_left _ hu)

theorem Creates.sameAt {failed : Response} {done : String → Response}
    (h : Creates s calm headers parts b failed done resp b') (hid : b.records id ≠ none) :
    SameAt id b b' := by
  have hother : ∀ {id'}, b.records id' = none → id' ≠ id := by
    rintro id' hnone rfl
    exact hid hnone
  cases h with
  | refused _ _ => exact .refl b
  | @stored id' ts us _ hnone hups =>
      rw [← List.append_nil us] at hups
      exact hups.sameAt (hother hnone) _
  | torn _ _ hnone hups => exact hups.sameAt (hother hnone) _

theorem Updates.sameAt {id' : String} {r : Record}
    (h : Updates s calm headers parts b id' r resp b') (hne : id' ≠ id) : SameAt id b b' := by
  cases h with
  | refused _ _ => exact .refl b
  | @stored ts us _ hups =>
      rw [← List.append_nil us] at hups
      exact hups.sameAt hne _
  | torn _ _ hups _ => exact hups.sameAt hne _

/-- A step keeps every record that the request is not addressed to. -/
theorem Step.sameAt {req : Request} (h : Step s calm b req resp b') (hid : b.records id ≠ none)
    (htarget : req.target? ≠ some id) : SameAt id b b' := by
  have hother : ∀ {id'}, req.target? = some id' → id' ≠ id := by
    rintro id' htarget' rfl
    exact htarget htarget'
  cases req with
  | create headers parts => exact Creates.sameAt h hid
  | apiCreate headers parts => exact Creates.sameAt h hid
  | update id' headers parts =>
      cases hr : b.records id' with
      | none =>
          rw [(step_update_of_none hr).1 h |>.1]
          exact .refl b
      | some r => exact ((step_update_of_some hr).1 h).sameAt (hother rfl)
  | delete id' =>
      cases h with
      | failed | missing => exact .refl b
      | deleted _ => exact .deleteRecord (hother rfl)
  | apiDelete id' =>
      cases h with
      | failed | missing => exact .refl b
      | deleted _ => exact .deleteRecord (hother rfl)
  | deleteAttachment id' x headers =>
      have hne : id' ≠ id := hother rfl
      cases h with
      | failed | missing => exact .refl b
      | deleted hfile howner _ =>
          exact (SameAt.deleteFile hfile (howner.trans_ne hne)).trans (.touch hne _)
      | torn _ hfile howner => exact .deleteFile hfile (howner.trans_ne hne)

/-! ## Records with their files -/

/-- The record `id` with its title, its content and, in some order, its files. -/
structure Has (b : Bin) (id title content : String) (files : List (String × Attachment)) :
    Prop where
  record : ∃ r, b.records id = some r ∧ r.title = title ∧ r.content = content
  nodup : (files.map Prod.fst).Nodup
  files : ∀ x, x ∈ files ↔ b.files x.1 = some x.2 ∧ x.2.recordId = id

namespace Has

variable {title content : String} {files : List (String × Attachment)}

theorem ne_none (h : b.Has id title content files) : b.records id ≠ none := by
  rcases h.record with ⟨r, hr, -⟩
  simp [hr]

theorem congr (h : b.Has id title content files) (hsame : SameAt id b b') :
    b'.Has id title content files := by
  refine ⟨hsame.records ▸ h.record, h.nodup, fun x => (h.files x).trans ?_⟩
  exact and_congr_left fun hx => (hsame.files x.1 x.2 hx).symm

/-- However the files are listed, they are those. -/
theorem perm (h : b.Has id title content files) {fs : List (String × Attachment)}
    (hfs : b.Lists id fs) : fs.Perm files := by
  have hnodup : fs.Nodup := hfs.sorted.imp fun {x y} hxy => by
    rintro rfl
    rcases hxy with hlt | ⟨-, hlt⟩
    · exact absurd hlt (lt_irrefl _)
    · exact absurd hlt (lt_irrefl _)
  exact (List.perm_ext_iff_of_nodup hnodup h.nodup.of_map).2 fun x =>
    (hfs.mem x).trans (h.files x).symm

end Has

/-- A record that a form has made. -/
theorem Uploads.has {ts : Int} {us : List (String × Attachment)} (h : Uploads s parts b id ts us)
    (hnone : ∀ x f, b.files x = some f → f.recordId ≠ id) :
    ((b.setRecord id (.new s parts ts)).addFiles us).Has id (formText s parts).1
      (formText s parts).2 us where
  record := by
    refine ⟨.new s parts ts, ?_, rfl, rfl⟩
    rw [records_addFiles]
    simp [setRecord]
  nodup := h.nodup
  files := by
    rintro ⟨x, f⟩
    rw [files_addFiles h.nodup]
    constructor
    · exact fun hmem => ⟨.inl hmem, h.owner _ hmem⟩
    · rintro ⟨hmem | ⟨-, hold⟩, howner⟩
      · exact hmem
      · exact absurd howner (hnone x f hold)

end Bin

/-! ## Stores -/

section Stores

variable {c : Crypto} {s : AppState} {w w' : Store} {log : List (Asked Reply Env)}

/-- A file belongs to a record that is there. -/
theorem Sound.owner (h : Sound c w) {id x : String} {f : Bin.Attachment}
    (hnone : (w.bin c).records id = none) (hfile : (w.bin c).files x = some f) :
    f.recordId ≠ id := by
  rcases files_bin.1 hfile with ⟨a, ha, -, bytes, -, rfl⟩
  rintro rfl
  exact h.records_eq_none.1 hnone (w.db.foreignKey a ha)

/-- A record that is answered is that of the bin, also where calls can fail. -/
theorem apiGetRecord_ok (hsound : Sound s.crypto w) {id : String} {record : ApiRecord}
    (hrun : Runs Store.answer w (apiGetRecord s id) log w' (.ok record)) :
    ∃ r fs, (w.bin s.crypto).records id = some r ∧ (w.bin s.crypto).Lists id fs ∧
      record = Bin.apiRecord id r fs := by
  have h : wp (answering Store.answer) (apiGetRecord s id) (fun a _ => ∀ record, a = .ok record →
      ∃ r fs, (w.bin s.crypto).records id = some r ∧ (w.bin s.crypto).Lists id fs ∧
        record = Bin.apiRecord id r fs) w := by
    simp only [apiGetRecord, wp_bind, wp_perform]
    refine ⟨trivial, ?_⟩
    rintro r w₁ ⟨e, hans⟩
    rcases r with err | _ | row
    · rintro record ⟨⟩
    · rintro record ⟨⟩
    · rcases Store.answer_db_ok hans with ⟨db, -, hexec, rfl⟩
      obtain ⟨hrow, rfl⟩ := Prod.mk.inj (Except.ok.inj hexec)
      simp only [wp_bind, wp_perform]
      refine ⟨trivial, ?_⟩
      rintro r w₂ ⟨e₂, hans₂⟩
      cases r with
      | error err => rintro record ⟨⟩
      | ok attachments =>
          rcases Store.answer_db_ok hans₂ with ⟨db₂, -, hexec₂, -⟩
          obtain ⟨rfl, -⟩ := Prod.mk.inj (Except.ok.inj hexec₂)
          intro record hrecord
          rcases hsound.getRecord id with ⟨hnone, -⟩ | ⟨row', title, content, hrow', rfl, hread, hrec⟩
          · rw [hnone] at hrow
            cases hrow
          · obtain rfl : row' = row := Option.some.inj (hrow'.symm.trans hrow)
            refine ⟨_, _, hrec, lists_bin hsound row'.id, ?_⟩
            simp only [decryptRecord, hread] at hrecord
            rw [Bin.apiRecord, map_row_files hsound]
            exact (Except.ok.inj hrecord).symm
  exact hrun.of_wp h record rfl

end Stores

end Aardbin
