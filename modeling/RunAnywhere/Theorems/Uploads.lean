import RunAnywhere.Api.Uploads

/-!
# Uploads are what they were registered as

Over every run of any number of uploads and job checks, of any tenants, while clients put objects
with the URLs they were given and calls may fail before or after they took effect:

* **registered** — a URL is given away only after its upload is registered, and the database
  refuses a second upload with one object key (`Depot.Sound`), so no URL lets anyone put anything
  else in the place of a registered object;
* **lasting** — a row is written once and stays (`Depot.Later`).
-/

namespace RunAnywhere

open Logic Logic.Machine

variable {digest : List UInt8 → Sha256}

/-! ## What always holds -/

/-- The URL puts the object of an upload. -/
structure SignedPut.Of (put : SignedPut) (row : UploadObject) : Prop where
  key : put.key = row.s3Key
  contentLength : put.contentLength = row.sizeBytes
  checksum : put.checksum = checksumBase64 row.sha256

/-- The content is what the upload says. -/
structure UploadObject.Holds (digest : List UInt8 → Sha256) (row : UploadObject)
    (content : List UInt8) : Prop where
  size : content.length = row.sizeBytes
  sha256 : digest content = row.sha256

namespace Depot

/-- Uploads have keys of their own, under the prefix of their tenant; URLs and objects are of
uploads. -/
structure Sound (digest : List UInt8 → Sha256) (s : Depot) : Prop where
  unique : ∀ id id' row row', s.upload? id = some row → s.upload? id' = some row' →
    row.s3Key = row'.s3Key → id = id'
  keys : ∀ id row, s.upload? id = some row → validateKey row.s3Key = .ok () ∧
    ∃ uuid, row.s3Key = newUploadObjectKey row.projectId row.kind uuid
  handed : ∀ put ∈ s.handed, ∃ id row, s.upload? id = some row ∧ put.Of row
  objects : ∀ key content, s.objects.get? key = some content →
    ∃ id row, s.upload? id = some row ∧ row.s3Key = key ∧ row.Holds digest content

/-- Uploads stay as they are. -/
def Later (s s' : Depot) : Prop := ∀ id row, s.upload? id = some row → s'.upload? id = some row

variable {s s' s'' : Depot}

theorem Later.refl (s : Depot) : s.Later s := fun _ _ h => h

theorem Later.trans (h : s.Later s') (h' : s'.Later s'') : s.Later s'' :=
  fun id row hrow => h' id row (h id row hrow)

/-- The object of an upload is its own. -/
theorem Sound.holds (h : s.Sound digest) {id : UploadId} {row : UploadObject}
    (hrow : s.upload? id = some row) {content : List UInt8}
    (hcontent : s.objects.get? row.s3Key = some content) : row.Holds digest content := by
  obtain ⟨id', row', hrow', hkey, hholds⟩ := h.objects _ _ hcontent
  cases h.unique id' id row' row hrow' hrow hkey
  cases hrow'.symm.trans hrow
  exact hholds

/-- A new upload. -/
theorem Sound.insert (h : s.Sound digest) {id : UploadId} {row : UploadObject}
    (hchecks : row.Checks) (hfree : s.upload? id = none)
    (hkey : ∀ id' row', s.upload? id' = some row' → row'.s3Key ≠ row.s3Key)
    (hvalid : validateKey row.s3Key = .ok () ∧
      ∃ uuid, row.s3Key = newUploadObjectKey row.projectId row.kind uuid) :
    Sound digest { s with uploads := s.uploads.put id ⟨row, hchecks⟩ } ∧
      s.Later { s with uploads := s.uploads.put id ⟨row, hchecks⟩ } := by
  have hcases : ∀ id' row',
      (Table.row? (s.uploads.put id ⟨row, hchecks⟩) id') = some row' →
        (id' = id ∧ row' = row) ∨ s.upload? id' = some row' := by
    intro id' row' hrow'
    rw [Table.row?_put] at hrow'
    split at hrow'
    · next heq =>
        cases hrow'
        exact Or.inl ⟨heq, rfl⟩
    · exact Or.inr hrow'
  have hlater : s.Later { s with uploads := s.uploads.put id ⟨row, hchecks⟩ } := by
    intro id' row' hrow'
    have hne : id' ≠ id := by
      rintro rfl
      rw [hfree] at hrow'
      cases hrow'
    exact (Table.row?_put_of_ne _ _ hchecks hne).trans hrow'
  refine ⟨⟨fun id₁ id₂ row₁ row₂ h₁ h₂ heq => ?_, fun id' row' hrow' => ?_, fun put hput => ?_,
    fun key content hcontent => ?_⟩, hlater⟩
  · rcases hcases id₁ row₁ h₁ with ⟨rfl, rfl⟩ | hold₁
    · rcases hcases id₂ row₂ h₂ with ⟨rfl, rfl⟩ | hold₂
      · rfl
      · exact absurd heq.symm (hkey id₂ row₂ hold₂)
    · rcases hcases id₂ row₂ h₂ with ⟨rfl, rfl⟩ | hold₂
      · exact absurd heq (hkey id₁ row₁ hold₁)
      · exact h.unique id₁ id₂ row₁ row₂ hold₁ hold₂ heq
  · rcases hcases id' row' hrow' with ⟨rfl, rfl⟩ | hold
    · exact hvalid
    · exact h.keys id' row' hold
  · obtain ⟨id', row', hrow', hof⟩ := h.handed put hput
    exact ⟨id', row', hlater id' row' hrow', hof⟩
  · obtain ⟨id', row', hrow', hkey', hholds⟩ := h.objects key content hcontent
    exact ⟨id', row', hlater id' row' hrow', hkey', hholds⟩

end Depot

/-! ## Keys -/

/-- The part of a key up to the next separator is determined. -/
theorem segment_inj {a b rest rest' : List Char} (ha : '/' ∉ a) (hb : '/' ∉ b)
    (h : a ++ '/' :: rest = b ++ '/' :: rest') : a = b ∧ rest = rest' := by
  induction a generalizing b with
  | nil =>
      cases b with
      | nil => exact ⟨rfl, (List.cons.inj h).2⟩
      | cons c b =>
          have hc := (List.cons.inj h).1
          exact absurd (hc ▸ List.mem_cons_self) hb
  | cons c a ih =>
      cases b with
      | nil =>
          have hc := (List.cons.inj h).1
          exact absurd (hc ▸ List.mem_cons_self) ha
      | cons d b =>
          obtain ⟨rfl, htail⟩ := List.cons.inj h
          obtain ⟨rfl, hrest⟩ := ih (fun hmem => ha (List.mem_cons_of_mem _ hmem))
            (fun hmem => hb (List.mem_cons_of_mem _ hmem)) htail
          exact ⟨rfl, hrest⟩

theorem Ident.no_slash {pre : String} (hpre : '/' ∉ pre.toList) (i : Ident pre) :
    '/' ∉ i.val.toList := by
  obtain ⟨suffix, hval, hchars⟩ := i.toList_eq
  rw [hval]
  intro hmem
  rcases List.mem_append.mp hmem with hp | hs
  · exact hpre hp
  · cases hchars _ hs

/-- **Tenants.** A key tells whose it is. -/
theorem newUploadObjectKey_inj {p p' : ProjectId} {kind kind' : UploadKind} {uuid uuid' : String}
    (h : newUploadObjectKey p kind uuid = newUploadObjectKey p' kind' uuid') :
    p = p' ∧ kind = kind' ∧ uuid = uuid' := by
  have htext := congrArg String.toList h
  simp only [newUploadObjectKey, String.toList_append, List.append_assoc] at htext
  have hrest := List.append_cancel_left htext
  obtain ⟨hproject, hrest⟩ := segment_inj (p.no_slash (by decide)) (p'.no_slash (by decide)) hrest
  have hrest : (Api.uploadKindName kind).toList ++ '/' :: uuid.toList =
      (Api.uploadKindName kind').toList ++ '/' :: uuid'.toList :=
    List.append_cancel_left (show "uploads/".toList ++ _ = "uploads/".toList ++ _ from hrest)
  have hkinds : ∀ k : UploadKind, '/' ∉ (Api.uploadKindName k).toList := by
    intro k
    cases k <;> decide
  obtain ⟨hkind, hrest⟩ := segment_inj (hkinds kind) (hkinds kind') hrest
  refine ⟨Ident.ext (String.toList_injective hproject), ?_, String.toList_injective hrest⟩
  cases kind <;> cases kind' <;> first | rfl | cases hkind

/-! ## The calls -/

/-- What the requests share: an answer gives away a URL of a registered upload, and a new upload
has a key of its tenant. -/
def uploadDiscipline (digest : List UInt8 → Sha256) : Discipline Depot UploadCall where
  inv := Depot.Sound digest
  later := Depot.Later
  cond _ _ := True
  allowed s x :=
    match x with
    | .respond response => ∃ id row, s.upload? id = some row ∧ response.uploadUrl.Of row
    | .createUpload _ projectId kind s3Key _ _ =>
        validateKey s3Key = .ok () ∧ ∃ uuid, s3Key = newUploadObjectKey projectId kind uuid
    | _ => True
  refl := Depot.Later.refl
  trans := Depot.Later.trans

/-- A transaction that makes an upload. -/
theorem createUpload_keeps {s : Depot} (hs : s.Sound digest) {id : UploadId}
    {projectId : ProjectId} {kind : UploadKind} {s3Key : String} {sha256 : Sha256}
    {sizeBytes : Nat} {now : Time} (hvalid : validateKey s3Key = .ok () ∧
      ∃ uuid, s3Key = newUploadObjectKey projectId kind uuid)
    {r : Except RepositoryError StoredUpload} {s' : Depot}
    (h : (RunAnywhere.createUpload id projectId kind s3Key sha256 sizeBytes now).exec s = (r, s')) :
    s'.Sound digest ∧ s.Later s' ∧ ∀ stored, r = .ok stored →
      stored = ⟨⟨⟨projectId, kind⟩, s3Key, sha256, sizeBytes, now⟩, id⟩ ∧
        s'.upload? id = some stored.toUploadObject := by
  rcases Tx.exec_cases (RunAnywhere.createUpload id projectId kind s3Key sha256 sizeBytes now) s
    with ⟨stored, s₁, hcommits, hexec⟩ | ⟨e, _, hexec⟩
  · obtain ⟨rfl, rfl⟩ := Prod.mk.inj (hexec.symm.trans h)
    obtain ⟨hstored, hinsert⟩ := createUpload_commits hcommits
    obtain ⟨hchecks, _, hfree, hkey, _, rfl⟩ := insertUpload_commits hinsert
    subst hstored
    obtain ⟨hsound, hlater⟩ := hs.insert hchecks hfree hkey hvalid
    refine ⟨hsound, hlater, fun stored' hr => ?_⟩
    cases hr
    exact ⟨rfl, Table.row?_put_self _ _ _ hchecks⟩
  · obtain ⟨rfl, rfl⟩ := Prod.mk.inj (hexec.symm.trans h)
    exact ⟨hs, .refl _, fun _ hr => by cases hr⟩

/-- The moves of others. -/
theorem move_keeps {s s' : Depot} {e : DepotMove} (hs : s.Sound digest)
    (h : s.move digest e = some s') : s'.Sound digest ∧ s.Later s' := by
  cases e with
  | createProject id =>
      cases h
      exact ⟨⟨hs.unique, hs.keys, hs.handed, hs.objects⟩, .refl s⟩
  | put url content =>
      simp only [Depot.move] at h
      split at h
      · next hput =>
          obtain ⟨hhanded, hlength, hchecksum⟩ := hput
          cases h
          refine ⟨⟨hs.unique, hs.keys, hs.handed, fun key content' hcontent => ?_⟩, .refl s⟩
          rw [Table.get?_put] at hcontent
          split at hcontent
          · next heq =>
              cases hcontent
              obtain ⟨id, row, hrow, hof⟩ := hs.handed url hhanded
              refine ⟨id, row, hrow, heq ▸ hof.key.symm, hlength.trans hof.contentLength, ?_⟩
              exact checksumBase64_inj (hchecksum.trans hof.checksum)
          · exact hs.objects key content' hcontent
      · cases h
  | removeObject key =>
      cases h
      exact ⟨⟨hs.unique, hs.keys, hs.handed, fun key' content hcontent =>
        hs.objects key' content (Table.get?_of_get?_erase hcontent)⟩, .refl s⟩

/-- Calls that change nothing. -/
def UploadCall.Reads : UploadCall → Prop
  | .sign _ | .getUpload _ | .headObject _ => True
  | _ => False

theorem read_same {s s' : Depot} {x : UploadCall} {r : x.Out} (hx : x.Reads)
    (h : (uploadMachine digest).Exec s x r s') : s' = s := by
  obtain ⟨fate, h⟩ := h
  change x.perform digest s fate = some (r, s') at h
  cases x with
  | sign put =>
      cases fate with
      | answered now =>
          cases h
          rfl
      | refused e =>
          simp only [UploadCall.perform] at h
          split at h
          · cases h
            rfl
          · cases h
      | _ => cases h
  | getUpload id =>
      cases fate with
      | answered now =>
          cases h
          rfl
      | lost now committed =>
          cases h
          rfl
      | _ => cases h
  | headObject key =>
      cases fate with
      | answered now =>
          cases h
          rfl
      | omitted a b =>
          cases h
          rfl
      | refused e =>
          simp only [UploadCall.perform] at h
          split at h
          · cases h
            rfl
          · cases h
      | lost now committed => cases h
  | _ => cases hx

/-- A call that is allowed keeps what holds. -/
theorem call_keeps {s s' : Depot} {x : UploadCall} {r : x.Out} (hs : s.Sound digest)
    (hx : (uploadDiscipline digest).allowed s x) (h : (uploadMachine digest).Exec s x r s') :
    s'.Sound digest ∧ s.Later s' := by
  cases x with
  | createUpload id projectId kind s3Key sha256 sizeBytes =>
      obtain ⟨fate, h⟩ := h
      change UploadCall.perform digest s _ fate = some (r, s') at h
      cases fate with
      | answered now =>
          obtain ⟨hsound, hlater, _⟩ := createUpload_keeps hs hx (Option.some.inj h)
          exact ⟨hsound, hlater⟩
      | lost now committed =>
          obtain ⟨_, rfl⟩ := Prod.mk.inj (Option.some.inj h)
          cases committed with
          | false => exact ⟨hs, .refl s⟩
          | true =>
              obtain ⟨hsound, hlater, _⟩ := createUpload_keeps hs hx rfl
              exact ⟨hsound, hlater⟩
      | _ => cases h
  | respond response =>
      obtain ⟨fate, h⟩ := h
      change UploadCall.perform digest s _ fate = some (r, s') at h
      cases fate with
      | answered now =>
          cases h
          refine ⟨⟨hs.unique, hs.keys, fun put hput => ?_, hs.objects⟩, .refl s⟩
          rcases List.mem_cons.mp hput with rfl | hold
          · exact hx
          · exact hs.handed put hold
      | lost now committed =>
          cases h
          exact ⟨hs, .refl s⟩
      | _ => cases h
  | sign put | getUpload id | headObject key =>
      have hsame : s' = s := read_same (by trivial) h
      subst hsame
      exact ⟨hs, .refl s'⟩

/-! ## The programs -/

instance stable_upload (id : UploadId) (row : UploadObject) :
    (uploadDiscipline digest).Stable fun s => s.upload? id = some row :=
  ⟨fun _ _ _ _ hl h => hl id row h⟩

/-- Since `birth` there was a moment at which `Φ` held. -/
def Depot.Since (digest : List UInt8 → Sha256) (birth : Depot) (Φ : Depot → Prop) (s : Depot) :
    Prop :=
  ∃ s₁, birth.Later s₁ ∧ s₁.Sound digest ∧ Φ s₁ ∧ s₁.Later s

instance stable_since (birth : Depot) (Φ : Depot → Prop) :
    (uploadDiscipline digest).Stable (Depot.Since digest birth Φ) := by
  refine ⟨fun s s' _ _ hl h => ?_⟩
  obtain ⟨s₁, hbirth, hsound, hΦ, hlater⟩ := h
  exact ⟨s₁, hbirth, hsound, hΦ, hlater.trans hl⟩

instance stable_later (birth : Depot) : (uploadDiscipline digest).Stable birth.Later :=
  ⟨fun _ _ _ _ hl h => h.trans hl⟩

variable (digest) in
/-- Triples of the requests. -/
abbrev Uploads {ε α : Type} (E : ε → Prop) (P : Depot → Prop) (p : Uploading ε α)
    (Q : α → Depot → Prop) : Prop :=
  OkTriple (uploadMachine digest) (uploadDiscipline digest) E P p Q

variable {P : Depot → Prop} [(uploadDiscipline digest).Stable P] {birth : Depot}

theorem uploads_sign (put : SignedPut) :
    Uploads digest (fun _ => True) P (sign put) fun _ _ => True := by
  refine Triple.act (M := uploadMachine digest) (x := UploadCall.sign put)
    (fun (r : Except ObjectStoreError Time) (_ : Depot) => (∀ a, r = .ok a → True) ∧
      ∀ e, r = .error e → True) ?_ ?_
  · exact fun _ _ _ _ => trivial
  intro _ _ _ _ _ _ _ _ _
  exact ⟨fun _ _ => trivial, fun _ _ => trivial⟩

/-- `stored` is the upload that was asked for, and it is there. -/
def Depot.Registered (s : Depot) (id : UploadId) (projectId : ProjectId) (kind : UploadKind)
    (s3Key : String) (sha256 : Sha256) (sizeBytes : Nat) (stored : StoredUpload) : Prop :=
  (∃ now, stored = ⟨⟨⟨projectId, kind⟩, s3Key, sha256, sizeBytes, now⟩, id⟩) ∧
    s.upload? id = some stored.toUploadObject

instance stable_registered (id : UploadId) (projectId : ProjectId) (kind : UploadKind)
    (s3Key : String) (sha256 : Sha256) (sizeBytes : Nat) (stored : StoredUpload) :
    (uploadDiscipline digest).Stable fun s =>
      s.Registered id projectId kind s3Key sha256 sizeBytes stored := by
  unfold Depot.Registered
  infer_instance

theorem uploads_store {id : UploadId} {projectId : ProjectId} {kind : UploadKind} {s3Key : String}
    {sha256 : Sha256} {sizeBytes : Nat} (hvalid : validateKey s3Key = .ok () ∧
      ∃ uuid, s3Key = newUploadObjectKey projectId kind uuid) :
    Uploads digest (fun _ => True) P (storeUpload id projectId kind s3Key sha256 sizeBytes)
      fun stored s => s.Registered id projectId kind s3Key sha256 sizeBytes stored := by
  refine Triple.act (M := uploadMachine digest)
    (x := UploadCall.createUpload id projectId kind s3Key sha256 sizeBytes)
    (fun (r : Except RepositoryError StoredUpload) (s : Depot) => (∀ stored, r = .ok stored →
      s.Registered id projectId kind s3Key sha256 sizeBytes stored) ∧
      ∀ e, r = .error e → True) ?_ ?_
  · exact fun _ _ _ _ => hvalid
  intro s r s' hs _ _ hexec _ _
  obtain ⟨fate, hexec⟩ := hexec
  change UploadCall.perform digest s _ fate = some (r, s') at hexec
  refine ⟨fun stored hr => ?_, fun _ _ => trivial⟩
  cases fate with
  | answered now =>
      obtain ⟨_, _, hstored⟩ := createUpload_keeps hs hvalid (Option.some.inj hexec)
      obtain ⟨heq, hrow⟩ := hstored stored hr
      subst heq
      exact ⟨⟨now, rfl⟩, hrow⟩
  | lost now committed =>
      obtain ⟨hanswer, _⟩ := Prod.mk.inj (Option.some.inj hexec)
      cases hanswer.trans hr
  | _ => cases hexec

theorem uploads_find (id : UploadId) :
    Uploads digest (fun _ => True) P (findUpload id) fun found s => ∀ upload,
      found = some upload → upload.id = id ∧ s.upload? id = some upload.toUploadObject := by
  refine Triple.act (M := uploadMachine digest) (x := UploadCall.getUpload id)
    (fun (r : Except RepositoryError (Option StoredUpload)) (s : Depot) => (∀ found,
      r = .ok found → ∀ upload, found = some upload → upload.id = id ∧
        s.upload? id = some upload.toUploadObject) ∧ ∀ e, r = .error e → True)
    ?_ ?_
  · exact fun _ _ _ _ => trivial
  intro s r s' _ _ _ hexec _ _
  obtain ⟨fate, hexec⟩ := hexec
  change UploadCall.perform digest s _ fate = some (r, s') at hexec
  refine ⟨fun found hr upload hfound => ?_, fun _ _ => trivial⟩
  cases fate with
  | answered now =>
      obtain ⟨hanswer, rfl⟩ := Prod.mk.inj (Option.some.inj hexec)
      have hread : (s.upload? id).map (fun row => (⟨row, id⟩ : StoredUpload)) = some upload := by
        rw [← hfound]
        exact Except.ok.inj (hanswer.trans hr)
      obtain ⟨row, hrow, rfl⟩ := Option.map_eq_some_iff.mp hread
      exact ⟨rfl, hrow⟩
  | lost now committed =>
      obtain ⟨hanswer, _⟩ := Prod.mk.inj (Option.some.inj hexec)
      cases hanswer.trans hr
  | _ => cases hexec

/-- What a HEAD request says of the object of an upload. -/
structure HeadOutput.Of (output : HeadOutput) (row : UploadObject) : Prop where
  contentLength : ∀ n, output.contentLength = some n → n = row.sizeBytes
  checksum : ∀ text, output.checksumSha256 = some text → text = checksumBase64 row.sha256

/-- The upload was there with its object. -/
def Depot.Present (digest : List UInt8 → Sha256) (id : UploadId) (row : UploadObject)
    (s : Depot) : Prop :=
  s.upload? id = some row ∧ ∃ content, s.objects.get? row.s3Key = some content ∧
    row.Holds digest content

/-- The errors of a HEAD request, and of its comparison with the upload. -/
def ObjectFails (e : ObjectStoreError) : Prop :=
  e = .notFound ∨ (∃ text, e = .head text) ∨ e = .missingContentLength ∨ e = .missingChecksum

theorem head_of {s : Depot} (hs : s.Sound digest) {id : UploadId} {row : UploadObject}
    (hrow : s.upload? id = some row) : s.head digest row.s3Key = .error .notFound ∨
      (s.Present digest id row ∧ s.head digest row.s3Key =
        .ok ⟨some row.sizeBytes, some (checksumBase64 row.sha256)⟩) := by
  unfold Depot.head
  cases hcontent : s.objects.get? row.s3Key with
  | none => exact Or.inl rfl
  | some content =>
      have hholds := hs.holds hrow hcontent
      refine Or.inr ⟨⟨hrow, content, hcontent, hholds⟩, ?_⟩
      dsimp only
      rw [hholds.size, hholds.sha256]

/-- An answer about the object of an upload, of which fields may be left out. -/
theorem head_reply {s : Depot} (hs : s.Sound digest) {id : UploadId} {row : UploadObject}
    (hrow : s.upload? id = some row) {hide : HeadOutput → HeadOutput}
    (hhide : ∀ output : HeadOutput, output.Of row → (hide output).Of row)
    {r : Except ObjectStoreError HeadOutput} (h : (s.head digest row.s3Key).map hide = r) :
    (∀ output, r = .ok output → output.Of row ∧ s.Present digest id row) ∧
      ∀ e, r = .error e → ObjectFails e := by
  rcases head_of hs hrow with hnone | ⟨hpresent, hsome⟩
  · rw [hnone] at h
    subst h
    refine ⟨fun output hr => (by cases hr), fun e hr => ?_⟩
    cases hr
    exact Or.inl rfl
  · rw [hsome] at h
    subst h
    refine ⟨fun output hr => ?_, fun e hr => by cases hr⟩
    cases hr
    refine ⟨hhide _ ⟨fun n hn => ?_, fun text htext => ?_⟩, hpresent⟩
    · cases hn
      rfl
    · cases htext
      rfl

theorem uploads_head {id : UploadId} {row : UploadObject} :
    Uploads digest ObjectFails (fun s => birth.Later s ∧ s.upload? id = some row)
      (headObject row.s3Key) fun output s => output.Of row ∧
        Depot.Since digest birth (Depot.Present digest id row) s := by
  refine Triple.act (M := uploadMachine digest) (x := UploadCall.headObject row.s3Key)
    (fun (r : Except ObjectStoreError HeadOutput) (s : Depot) => (∀ output, r = .ok output →
      output.Of row ∧ Depot.Since digest birth (Depot.Present digest id row) s) ∧
      ∀ e, r = .error e → ObjectFails e) ?_ ?_
  · exact fun _ _ _ _ => trivial
  intro s r s' hs _ hP hexec _ _
  have hsame : s' = s := read_same (by trivial) hexec
  subst hsame
  have hsince : ∀ {output : HeadOutput}, output.Of row ∧ s'.Present digest id row →
      output.Of row ∧ Depot.Since digest birth (Depot.Present digest id row) s' :=
    fun h => ⟨h.1, s', hP.1, hs, h.2, .refl s'⟩
  obtain ⟨fate, hexec⟩ := hexec
  change UploadCall.perform digest s' _ fate = some (r, s') at hexec
  cases fate with
  | answered now =>
      obtain ⟨hr, _⟩ := Prod.mk.inj (Option.some.inj hexec)
      have hmap : (s'.head digest row.s3Key).map (fun output => output) = r := by
        rw [← hr]
        cases s'.head digest row.s3Key <;> rfl
      obtain ⟨hok, herror⟩ := head_reply hs hP.2 (fun _ h => h) hmap
      exact ⟨fun output hr => hsince (hok output hr), herror⟩
  | omitted a b =>
      obtain ⟨hr, _⟩ := Prod.mk.inj (Option.some.inj hexec)
      have hhide : ∀ output : HeadOutput, output.Of row →
          (⟨if a then none else output.contentLength,
            if b then none else output.checksumSha256⟩ : HeadOutput).Of row := by
        intro output hof
        refine ⟨fun n hn => ?_, fun text htext => ?_⟩
        · cases a
          · exact hof.contentLength n hn
          · cases hn
        · cases b
          · exact hof.checksum text htext
          · cases htext
      obtain ⟨hok, herror⟩ := head_reply hs hP.2 hhide hr
      exact ⟨fun output hr => hsince (hok output hr), herror⟩
  | refused e =>
      simp only [UploadCall.perform] at hexec
      split at hexec
      · next hfails =>
          obtain ⟨rfl, _⟩ := Prod.mk.inj (Option.some.inj hexec)
          refine ⟨fun _ h => (by cases h), fun e' h => ?_⟩
          cases h
          cases e <;> cases hfails
          exact Or.inr (Or.inl ⟨_, rfl⟩)
      · cases hexec
  | lost now committed => cases hexec

/-- Of the object of an upload a comparison fails only for want of a field. -/
theorem compareObject_of {row : UploadObject} {output : HeadOutput} (h : output.Of row)
    {e : ObjectStoreError} (he : compareObject row.sizeBytes row.sha256 output = .error e) :
    ObjectFails e := by
  unfold compareObject at he
  cases hlength : output.contentLength with
  | none =>
      rw [hlength] at he
      cases he
      exact Or.inr (Or.inr (Or.inl rfl))
  | some n =>
      have hn := h.contentLength n hlength
      have hnonneg : 0 ≤ n := by omega
      have hsize : n.toNat = row.sizeBytes := by omega
      rw [hlength] at he
      simp only [if_pos hnonneg] at he
      change (if n.toNat ≠ row.sizeBytes then _ else _) = _ at he
      rw [if_neg (not_not.mpr hsize)] at he
      cases hchecksum : output.checksumSha256 with
      | none =>
          rw [hchecksum] at he
          cases he
          exact Or.inr (Or.inr (Or.inr rfl))
      | some text =>
          rw [hchecksum] at he
          dsimp only at he
          rw [if_neg (not_not.mpr (h.checksum text hchecksum))] at he
          cases he

/-- `verify_upload` of the object of an upload. -/
theorem uploads_verify {id : UploadId} {row : UploadObject}
    (hkey : validateKey row.s3Key = .ok ()) :
    Uploads digest ObjectFails (fun s => birth.Later s ∧ s.upload? id = some row)
      (verifyUpload row.s3Key row.sizeBytes row.sha256) fun _ s =>
        Depot.Since digest birth (Depot.Present digest id row) s := by
  refine OkTriple.seq (OkTriple.conseq (OkTriple.ofExcept ?_) (fun _ _ h => h)
    fun _ _ _ _ => trivial) fun _ => ?_
  · intro e he
    rw [hkey] at he
    cases he
  refine OkTriple.bind (OkTriple.try_ uploads_head fun _ he => he) fun output => ?_
  intro s hs hP
  have hof : output.Of row := hP.2.1
  refine (OkTriple.conseq (OkTriple.frame (P := Depot.Since digest birth
    (Depot.Present digest id row)) (OkTriple.ofExcept ?_)) (fun _ _ h => h)
    fun _ _ _ h => h.1) s hs hP.2.2
  exact fun e he => compareObject_of hof he

/-- What is known of an upload of a job that was checked: it is the caller's, of the kind, and was
there with its object. -/
def Depot.Checked (digest : List UInt8 → Sha256) (auth : AuthContext) (birth : Depot)
    (id : UploadId) (kind : UploadKind) (s : Depot) : Prop :=
  ∃ row, s.upload? id = some row ∧ requireOwnedResource auth row.projectId "upload" = .ok () ∧
    row.kind = kind ∧ Depot.Since digest birth (Depot.Present digest id row) s

instance stable_checked (auth : AuthContext) (birth : Depot) (id : UploadId) (kind : UploadKind) :
    (uploadDiscipline digest).Stable (Depot.Checked digest auth birth id kind) := by
  unfold Depot.Checked
  infer_instance

/-- The errors of the checks of a new job: never that an object is not what was registered. -/
def CheckFails (e : ApiError) : Prop :=
  e = .validation "APK and test uploads must be different" ∨ e = .notFound "upload" ∨
    (∃ error, e = .ofRepository error) ∨
    (∃ id row kind, Api.requireUploadKind id row kind = .error e) ∨
    ∃ error, ObjectFails error ∧ e = .ofObjectStore error

theorem CheckFails.ofObject {e : ObjectStoreError} (h : ObjectFails e) :
    CheckFails (.ofObjectStore e) :=
  Or.inr (Or.inr (Or.inr (Or.inr ⟨e, h, rfl⟩)))

/-- One upload of a job. -/
theorem uploads_check (auth : AuthContext) (id : UploadId) (kind : UploadKind) :
    Uploads digest CheckFails birth.Later (Api.checkUpload auth id kind) fun _ =>
      Depot.Checked digest auth birth id kind := by
  refine OkTriple.bind (OkTriple.try_ (uploads_find id) fun e _ =>
    Or.inr (Or.inr (Or.inl ⟨e, rfl⟩))) fun found => ?_
  cases found with
  | none => exact OkTriple.fail (Or.inr (Or.inl rfl))
  | some upload =>
      intro s hs hP
      obtain ⟨hid, hrow⟩ := hP.2 upload rfl
      have hkey := (hs.keys id upload.toUploadObject hrow).1
      refine (?_ : Uploads digest CheckFails
        (fun s => birth.Later s ∧ s.upload? id = some upload.toUploadObject) _ _) s hs
        ⟨hP.1, hrow⟩
      refine OkTriple.bind (OkTriple.ofExcept ?_) fun _ => ?_
      · intro e he
        unfold requireOwnedResource at he
        split at he
        · cases he
        · cases he
          exact Or.inr (Or.inl rfl)
      refine OkTriple.bind (OkTriple.ofExcept ?_) fun _ => ?_
      · exact fun e he => Or.inr (Or.inr (Or.inr (Or.inl ⟨_, _, _, he⟩)))
      intro s hs hP
      have howned := hP.1.2
      have hkind : upload.kind = kind := by
        have hok := hP.2
        unfold Api.requireUploadKind at hok
        split at hok
        · next heq => exact heq
        · cases hok
      have hverify : Uploads digest CheckFails
          (fun s => birth.Later s ∧ s.upload? id = some upload.toUploadObject)
          (.try_ (verifyUpload upload.s3Key upload.sizeBytes upload.sha256) ApiError.ofObjectStore)
          fun _ s => Depot.Since digest birth (Depot.Present digest id upload.toUploadObject) s :=
        OkTriple.try_ (uploads_verify hkey) fun _ => CheckFails.ofObject
      refine (OkTriple.conseq (OkTriple.frame hverify) (fun _ _ h => h) ?_) s hs hP.1.1
      exact fun _ s _ h => ⟨upload.toUploadObject, h.1.2, howned, hkind, h.2⟩

/-- The uploads of a job. -/
theorem uploads_checks (auth : AuthContext) (apk : UploadId) (test : Option UploadId) :
    Uploads digest CheckFails birth.Later (Api.checkUploads auth apk test) fun _ s =>
      Depot.Checked digest auth birth apk .apk s ∧
        ∀ id, test = some id → Depot.Checked digest auth birth id .test s := by
  unfold Api.checkUploads
  split
  · exact OkTriple.fail (Or.inl rfl)
  refine OkTriple.bind (uploads_check auth apk .apk) fun _ => ?_
  cases test with
  | none =>
      refine OkTriple.pure fun s _ h => ⟨h.2, fun id hid => ?_⟩
      cases hid
  | some id =>
      refine OkTriple.conseq (OkTriple.frame (OkTriple.pre (uploads_check auth id .test)
        fun _ _ h => h.1)) (fun _ _ h => h) fun _ s _ h => ⟨h.1.2, fun id' hid => ?_⟩
      cases hid
      exact h.2

/-- What is known of an upload that was made: it is as requested, and the URL puts its object. -/
def Depot.Created (request : CreateUploadRequest) (response : CreateUploadResponse) (s : Depot) :
    Prop :=
  ∃ row, s.upload? response.uploadId = some row ∧ row.projectId = request.projectId ∧
    row.kind = request.kind ∧ row.sha256 = request.sha256 ∧ row.sizeBytes = request.sizeBytes ∧
    response.uploadUrl.Of row ∧ response.uploadUrl.contentType = request.contentType

instance stable_created (request : CreateUploadRequest) (response : CreateUploadResponse) :
    (uploadDiscipline digest).Stable (Depot.Created request response) := by
  unfold Depot.Created
  infer_instance

/-- What `presign_upload` answers. -/
def PresignedUpload.For (signed : PresignedUpload) (key contentType : String) (sizeBytes : Nat)
    (sha256 : Sha256) : Prop :=
  validateKey key = .ok () ∧ signed.url = ⟨key, contentType, sizeBytes, checksumBase64 sha256⟩

theorem uploads_presign (key contentType : String) (sizeBytes : Nat) (sha256 : Sha256) :
    Uploads digest (fun _ => True) P (presignUpload key contentType sizeBytes sha256)
      fun signed _ => signed.For key contentType sizeBytes sha256 := by
  refine OkTriple.bind (OkTriple.ofExcept fun _ _ => trivial) fun _ => ?_
  refine OkTriple.bind (OkTriple.ofExcept fun _ _ => trivial) fun _ => ?_
  split
  · exact OkTriple.fail trivial
  refine OkTriple.bind (OkTriple.try_ (uploads_sign _) fun _ _ => trivial) fun _ => ?_
  exact OkTriple.pure fun s _ h => ⟨h.1.1.2, rfl⟩

/-- `create_upload`. -/
theorem uploads_create (auth : AuthContext) (request : CreateUploadRequest) (id : UploadId)
    (uuid : String) : Uploads digest (fun _ => True) (fun _ => True)
      (Api.createUpload auth request id uuid) fun response s =>
        s.Created request response ∧ requireProject auth request.projectId = .ok () := by
  unfold Api.createUpload
  refine OkTriple.bind (OkTriple.ofExcept fun _ _ => trivial) fun _ => ?_
  refine OkTriple.bind (OkTriple.ofExcept fun _ _ => trivial) fun _ => ?_
  refine OkTriple.bind (OkTriple.ofExcept fun _ _ => trivial) fun _ => ?_
  refine OkTriple.bind (OkTriple.try_ (uploads_presign _ _ _ _) fun _ _ => trivial) fun signed => ?_
  intro s hs hP
  have hsigned := hP.2
  have hproject := hP.1.1.2
  refine (?_ : Uploads digest (fun _ => True) (fun _ => True) _ _) s hs trivial
  refine OkTriple.bind (OkTriple.try_ (uploads_store ⟨hsigned.1, uuid, rfl⟩) fun _ _ => trivial)
    fun stored => ?_
  refine OkTriple.bind (R := fun _ _ => True) (OkTriple.lift ?_) fun _ => ?_
  · refine Triple.act (M := uploadMachine digest) (x := UploadCall.respond _)
      (fun (_ : Unit) (_ : Depot) => True) ?_ ?_
    · intro s _ _ h
      obtain ⟨⟨now, rfl⟩, hrow⟩ := h.2
      refine ⟨_, _, hrow, ?_, ?_, ?_⟩ <;> rw [hsigned.2]
    · exact fun _ _ _ _ _ _ _ _ _ => trivial
  · refine OkTriple.pure fun s _ h => ⟨?_, hproject⟩
    obtain ⟨⟨now, rfl⟩, hrow⟩ := h.1.2
    refine ⟨_, hrow, rfl, rfl, rfl, rfl, ⟨?_, ?_, ?_⟩, ?_⟩ <;> rw [hsigned.2]

/-! ## Every run -/

/-- What a request comes to. -/
def UploadTask.Post (digest : List UInt8 → Sha256) (task : UploadTask) (birth : Depot)
    (r : Except ApiError UploadAnswer) (s : Depot) : Prop :=
  match task, r with
  | .createUpload auth request _ _, .ok (.created response) =>
      s.Created request response ∧ requireProject auth request.projectId = .ok ()
  | .checkUploads auth apk test, .ok .checked =>
      Depot.Checked digest auth birth apk .apk s ∧
        ∀ id, test = some id → Depot.Checked digest auth birth id .test s
  | .checkUploads _ _ _, .error e => CheckFails e
  | .createUpload _ _ _ _, .error _ => True
  | _, _ => False

theorem upload_respects (digest : List UInt8 → Sha256) :
    Machine.Respects (uploadMachine digest) (uploadDiscipline digest)
      (UploadTask.Post digest) where
  act _ _ _ _ hs _ hx hexec := call_keeps hs hx hexec
  env _ _ _ hs he := move_keeps hs he
  crash s hs := ⟨hs, .refl s⟩
  spawn birth task hs _ := by
    cases task with
    | createUpload auth request id uuid =>
        have htask : Uploads digest (fun _ => True) (fun _ => True)
            (UploadTask.createUpload auth request id uuid).prog
            ((UploadTask.createUpload auth request id uuid).Post digest birth ∘ .ok) :=
          OkTriple.bind (uploads_create auth request id uuid) fun _ =>
            OkTriple.pure fun _ _ h => h.2
        refine (htask birth hs trivial).mono fun r s _ h => ?_
        cases r with
        | ok answer => exact h.1 answer rfl
        | error e => trivial
    | checkUploads auth apk test =>
        have htask : Uploads digest CheckFails birth.Later
            (UploadTask.checkUploads auth apk test).prog
            ((UploadTask.checkUploads auth apk test).Post digest birth ∘ .ok) :=
          OkTriple.bind (uploads_checks auth apk test) fun _ => OkTriple.pure fun _ _ h => h.2
        refine (htask birth hs (.refl birth)).mono fun r s _ h => ?_
        cases r with
        | ok answer => exact h.1 answer rfl
        | error e => exact h.2 e rfl

/-- **Uploads.** Any number of uploads and of checks for new jobs, of any tenants, with clients who
put objects, in any interleaving:

* an upload stays as it was registered; a URL that was given away puts its object and no other,
  under the prefix of its tenant; and the object, whenever there is one, has the registered size
  and digest;
* an upload that was made is as requested, for the caller's project;
* the uploads of a job that were checked are the caller's, of the right kinds, and were there with
  their objects while they were checked;
* the check of a job never fails because an object is not what was registered. -/
theorem uploads_are_exact {start : Depot} (hstart : start.Sound digest)
    {p : Pool Depot UploadCall UploadCall.Out UploadTask (Except ApiError UploadAnswer)}
    {cs : List (Cmd UploadTask UploadFate DepotMove)}
    (hrun : ((uploadMachine digest).system (· = start) fun _ _ => True).Run ⟨start, []⟩ cs p) :
    (∀ id row, p.state.upload? id = some row →
      (∀ put ∈ p.state.handed, put.key = row.s3Key → put.Of row) ∧
      (∀ content, p.state.objects.get? row.s3Key = some content → row.Holds digest content) ∧
      ∀ cs' p', ((uploadMachine digest).system (· = start) fun _ _ => True).Run p cs' p' →
        p'.state.upload? id = some row) ∧
    (∀ put ∈ p.state.handed, ∃ id row, p.state.upload? id = some row ∧ put.Of row ∧
      ∀ projectId kind uuid, put.key = newUploadObjectKey projectId kind uuid →
        row.projectId = projectId ∧ row.kind = kind) ∧
    (∀ th ∈ p.threads, ∀ auth request id uuid response,
      th.tag = .createUpload auth request id uuid → th.rest = .done (.ok (.created response)) →
        p.state.Created request response ∧ requireProject auth request.projectId = .ok ()) ∧
    ∀ th ∈ p.threads, ∀ auth apk test, th.tag = .checkUploads auth apk test →
      (th.rest = .done (.ok .checked) → Depot.Checked digest auth th.birth apk .apk p.state ∧
        ∀ id, test = some id → Depot.Checked digest auth th.birth id .test p.state) ∧
      ∀ e, th.rest = .done (.error e) → CheckFails e := by
  have hrespects := upload_respects digest
  have hinit : ∀ s : Depot, s = start → (uploadDiscipline digest).inv s := by
    rintro _ rfl
    exact hstart
  have hboot : ((uploadMachine digest).system (· = start) fun _ _ => True).Reachable
      ⟨start, []⟩ := .init ⟨rfl, rfl⟩
  have hreach := hboot.run hrun
  have hsound : p.state.Sound digest := hrespects.inv hinit hreach
  refine ⟨fun id row hrow => ⟨fun put hput hkey => ?_, fun content => hsound.holds hrow, ?_⟩,
    fun put hput => ?_, ?_, ?_⟩
  · obtain ⟨id', row', hrow', hof⟩ := hsound.handed put hput
    cases hsound.unique id' id row' row hrow' hrow (hof.key.symm.trans hkey)
    cases hrow'.symm.trans hrow
    exact hof
  · intro cs' p' hrun'
    have hlater : p.state.Later p'.state := hrespects.run_later hinit hreach hrun'
    exact hlater id row hrow
  · obtain ⟨id, row, hrow, hof⟩ := hsound.handed put hput
    refine ⟨id, row, hrow, hof, fun projectId kind uuid hkey => ?_⟩
    obtain ⟨uuid', hrowkey⟩ := (hsound.keys id row hrow).2
    obtain ⟨hproject, hkind, _⟩ :=
      newUploadObjectKey_inj (hrowkey.symm.trans (hof.key.symm.trans hkey))
    exact ⟨hproject, hkind⟩
  · intro th hth auth request id uuid response htag hdone
    have hpost := hrespects.finished hinit hreach hth hdone
    rw [htag] at hpost
    exact hpost
  · intro th hth auth apk test htag
    constructor
    · intro hdone
      have hpost := hrespects.finished hinit hreach hth hdone
      rw [htag] at hpost
      exact hpost
    · intro e hdone
      have hpost := hrespects.finished hinit hreach hth hdone
      rw [htag] at hpost
      exact hpost

namespace DepotSample

def abc : List UInt8 := [97, 98, 99]

def abcDigest : Sha256 :=
  ⟨"ba7816bf8f01cfea414140de5dae2223b00361a396177a9cb410ff61f20015ad", by decide⟩

def emptyDigest : Sha256 :=
  ⟨"e3b0c44298fc1c149afbf4c8996fb92427ae41e4649b934ca495991b7852b855", by decide⟩

/-- SHA-256 of `abc`; of anything else it is not needed. -/
def digestOf (content : List UInt8) : Sha256 := if content = abc then abcDigest else emptyDigest

def tenant : ProjectId := ⟨"proj_uploads", by decide⟩
def apkId : UploadId := ⟨"upl_abc", by decide⟩
def caller : AuthContext :=
  ⟨"api_key:key_uploads", some "key_uploads", some tenant, [.projectWrite]⟩

def request : CreateUploadRequest where
  projectId := tenant
  kind := .apk
  fileName := "app.apk"
  contentType := "application/vnd.android.package-archive"
  sizeBytes := 3
  sha256 := abcDigest

def depot : Depot := ⟨[tenant], Table.empty, Table.empty, []⟩

theorem depot_sound : depot.Sound digestOf where
  unique _ _ _ _ h := by cases h
  keys _ _ h := by cases h
  handed _ h := by cases h
  objects _ _ h := by cases h

def url : SignedPut where
  key := newUploadObjectKey tenant .apk "0f8fad5bd9cb469fa165708673f2c2b4"
  contentType := request.contentType
  contentLength := 3
  checksum := checksumBase64 abcDigest

/-- The upload is registered, the client puts the object, and a job is checked. -/
def uploaded : List (Cmd UploadTask UploadFate DepotMove) :=
  [.spawn (.createUpload caller request apkId "0f8fad5bd9cb469fa165708673f2c2b4"),
    .act 0 (.answered 0), .act 0 (.answered 0), .act 0 (.answered 0), .env (.put url abc),
    .spawn (.checkUploads caller apkId none), .act 1 (.answered 1), .act 1 (.answered 1)]

def outcome? (th : Thread Depot UploadCall UploadCall.Out UploadTask
    (Except ApiError UploadAnswer)) : Option (Except ApiError UploadAnswer) :=
  match th.rest with
  | .done r => some r
  | .act _ _ => none

/-- The checks of a thread that ended well. -/
def checks? (th : Thread Depot UploadCall UploadCall.Out UploadTask
    (Except ApiError UploadAnswer)) : Option (UploadId × Option UploadId) :=
  match th.tag, th.rest with
  | .checkUploads auth apk test, .done (.ok .checked) =>
      if auth = caller then some (apk, test) else none
  | _, _ => none

end DepotSample

open DepotSample in
/-- The object that was put passes the check. -/
theorem uploads_are_exact_checked :
    ∃ p, ((uploadMachine digestOf).system (· = depot) fun _ _ => True).Run ⟨depot, []⟩ uploaded p ∧
      p.threads.map outcome? = [some (.ok (.created ⟨apkId, url, [("Content-Type",
        "application/vnd.android.package-archive"), ("x-amz-checksum-sha256",
        "ungWv48Bz+pBQUDeXa4iI7ADYaOWF3qctBD/YfIAFa0=")], 0⟩)), some (.ok .checked)] ∧
      ∃ birth, Depot.Checked digestOf caller birth apkId .apk p.state := by
  have hfinal : ((uploadMachine digestOf).replay ⟨depot, []⟩ uploaded).map
      (fun p => (p.threads.map outcome?, p.threads.map checks?)) =
        some ([some (.ok (.created ⟨apkId, url, [("Content-Type",
          "application/vnd.android.package-archive"), ("x-amz-checksum-sha256",
          "ungWv48Bz+pBQUDeXa4iI7ADYaOWF3qctBD/YfIAFa0=")], 0⟩)), some (.ok .checked)],
          [none, some (apkId, none)]) := by
    decide +kernel
  obtain ⟨p, hreplay, houtcomes⟩ := Option.map_eq_some_iff.mp hfinal
  obtain ⟨houtcomes, hchecks⟩ := Prod.mk.inj houtcomes
  have hrun : ((uploadMachine digestOf).system (· = depot) fun _ _ => True).Run ⟨depot, []⟩
      uploaded p := replay_run _ hreplay
  have hlast : some (apkId, (none : Option UploadId)) ∈ p.threads.map checks? := by
    rw [hchecks]
    simp
  obtain ⟨th, hth, hthread⟩ := List.mem_map.mp hlast
  unfold checks? at hthread
  split at hthread
  · next auth apk test htag hdone =>
      split at hthread
      · next hauth =>
          cases hthread
          obtain ⟨_, _, _, hchecked⟩ := uploads_are_exact depot_sound hrun
          obtain ⟨hapk, _⟩ := (hchecked th hth _ _ _ htag).1 hdone
          exact ⟨p, hrun, houtcomes, th.birth, hauth ▸ hapk⟩
      · cases hthread
  · cases hthread

end RunAnywhere
