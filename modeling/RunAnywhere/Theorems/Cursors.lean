import RunAnywhere.Api.Handlers
import RunAnywhere.Theorems.Pages
import RunAnywhere.Theorems.Starvation
import RunAnywhere.Theorems.Tenancy

/-!
# Cursors come back

**Which cursors the API accepts of those it hands out.** A cursor is JSON in base64, and a route
refuses one of more than 2048 bytes before it decodes it. An identifier is of any length, so a page
that ends with a row of a long identifier hands out a cursor that its own route refuses: the rows
behind it cannot be listed.

* **one page** — the cursor of a page follows on exactly if the row it ends with takes at most 1536
  bytes of JSON (`follows_iff`);
* **routes** — what that is for the identifiers and instants of each route
  (`handed_cursors_follow_iff`).
-/

namespace RunAnywhere

open Logic

/-! ## One page -/

/-- The next cursor of a page is accepted, and is read as the key of the page's last item. -/
def Follows {S R K I α β Key : Type} (codec : CursorCodec) (serde : Serde Key) (route : String)
    (ofKey : K → Key) (L : Listing S R K I α) (itemId : β → I) (s : S) (page : Page β String) :
    Prop :=
  ∀ cursor, page.nextCursor = some cursor → validateCursor (some cursor) = .ok () ∧
    ∃ r ∈ L.matching s, page.items.getLast?.map itemId = some (L.id r) ∧
      decodeRouteCursor codec serde route cursor = .ok (ofKey (L.key r))

theorem validateCursor_eq_ok_iff {cursor : String} : validateCursor (some cursor) = .ok () ↔
    0 < cursor.utf8ByteSize ∧ cursor.utf8ByteSize ≤ 2048 := by
  have hempty : cursor.isEmpty = true ↔ cursor.utf8ByteSize = 0 :=
    String.isEmpty_iff_utf8ByteSize_eq_zero
  unfold validateCursor
  simp only
  split
  · next hbad =>
      rw [hempty] at hbad
      constructor
      · intro h
        cases h
      · intro h
        omega
  · next hgood =>
      rw [hempty] at hgood
      constructor
      · intro _
        omega
      · intro _
        rfl

/-- The last row of a page is the one its last item shows. -/
theorem getLast?_itemId {R I β : Type} {items : List β} {itemId : β → I} {rows : List R}
    {id : R → I} (h : items.map itemId = rows.map id) {r : R} (hlast : rows.getLast? = some r) :
    items.getLast?.map itemId = some (id r) := by
  rw [← List.getLast?_map, h, List.getLast?_map, hlast]
  rfl

/-- **One page.** Its cursor follows on exactly if the row it ends with is short. -/
theorem follows_iff {S R K I α β Key : Type} [LinearOrder K] {codec : CursorCodec}
    {serde : Serde Key} {route : String} {ofKey : K → Key} {L : Listing S R K I α} {itemId : β → I}
    {s : S} {page : Page β String} {text : K → String} {limit : Nat} {cursor : Option K}
    {size : R → Nat} (hkeys : ((L.matching s).map L.key).Nodup) (hlimit : 0 < limit)
    (hnext : page.nextCursor = (L.present text limit cursor s).nextCursor)
    (hitems : page.items.map itemId =
      (Keyset.page L.key limit cursor (L.matching s)).1.map L.id)
    (hdecode : ∀ k, decodeRouteCursor codec serde route (text k) = .ok (ofKey k))
    (hsize : ∀ r ∈ L.matching s, (text (L.key r)).utf8ByteSize = (4 * size r + 2) / 3)
    (hpos : ∀ r, 0 < size r) :
    Follows codec serde route ofKey L itemId s page ↔
      ∀ r, Keyset.Closes L.key limit cursor (L.matching s) r → size r ≤ 1536 := by
  -- the cursor is that of the row the page ends with
  have hcursor : ∀ c, page.nextCursor = some c ↔
      ∃ r, Keyset.Closes L.key limit cursor (L.matching s) r ∧ text (L.key r) = c := by
    intro c
    rw [hnext]
    simp only [Keyset.closes_iff hkeys hlimit]
    unfold Listing.present Listing.toPage
    simp only
    cases (Keyset.page L.key limit cursor (L.matching s)).2 with
    | false => simp
    | true => simp
  have hvalid : ∀ r ∈ L.matching s,
      (validateCursor (some (text (L.key r))) = .ok () ↔ size r ≤ 1536) := by
    intro r hr
    have hr0 := hpos r
    rw [validateCursor_eq_ok_iff, hsize r hr]
    omega
  constructor
  · intro hfollows r hr
    exact (hvalid r hr.mem).mp (hfollows _ ((hcursor _).mpr ⟨r, hr, rfl⟩)).1
  · intro hshort c hc
    obtain ⟨r, hr, rfl⟩ := (hcursor c).mp hc
    have hlast := ((Keyset.closes_iff hkeys hlimit).mp hr).2
    exact ⟨(hvalid r hr.mem).mpr (hshort r hr), r, hr.mem, getLast?_itemId hitems hlast,
      hdecode _⟩

/-! ## Sizes -/

/-- An identifier is plain text. -/
theorem Ident.plain {pre : String} (i : Ident pre) (hpre : PlainText pre) : PlainText i.val := by
  obtain ⟨suffix, htext, hchars⟩ := i.toList_eq
  intro c hc
  rw [htext] at hc
  rcases List.mem_append.mp hc with hin | hin
  · exact hpre c hin
  · have hrange := isIdentifierChar_range (hchars c hin)
    exact ⟨by omega, by omega, isIdentifierChar_ne (hchars c hin) (by decide),
      isIdentifierChar_ne (hchars c hin) (by decide)⟩

theorem decodeRouteCursor_cursorText {Key : Type} {codec : CursorCodec} {serde : Serde Key}
    (hcodec : codec.Lawful) (hserde : serde.Lawful) (route : String) (key : Key) :
    decodeRouteCursor codec serde route (cursorText codec serde route key) = .ok key :=
  decode_encodeRouteCursor hcodec hserde (encodeRouteCursor_eq hcodec hserde)

section Sizes

variable {codec : CursorCodec} (hcodec : codec.Lawful) (hcompact : codec.Compact)
include hcodec hcompact

theorem jobText_bytes (j : JobId) (t : Time) :
    (jobText codec (JobCursor.key ⟨t, j⟩)).utf8ByteSize =
      (4 * (52 + (codec.formatTime t).utf8ByteSize + j.val.utf8ByteSize) + 2) / 3 := by
  have htexts : ∀ text ∈ [codec.formatTime t, j.val], PlainText text :=
    List.forall_mem_cons.mpr
      ⟨hcompact.time t, List.forall_mem_singleton.mpr (j.plain (by decide))⟩
  have hsize : (jobText codec (JobCursor.key ⟨t, j⟩)).utf8ByteSize =
      (4 * jsonBytes "jobs" [("created_at", codec.formatTime t), ("job_id", j.val)] + 2) / 3 :=
    cursorText_bytes hcodec hcompact (JobCursor.serde_lawful hcodec) (List.cons_ne_nil _ _)
      (by decide) (show ∀ n ∈ ["created_at", "job_id"], PlainText n by decide) htexts
  have hbytes : jsonBytes "jobs" [("created_at", codec.formatTime t), ("job_id", j.val)] =
      24 + (10 + (codec.formatTime t).utf8ByteSize + 6 + (6 + j.val.utf8ByteSize + 6 + 0)) := rfl
  rw [hsize, hbytes]
  congr 2
  omega

theorem artifactText_bytes (j : JobId) (id : ArtifactId) (t : Time) :
    (artifactText codec j (ArtifactCursor.key ⟨j.val, t, id.val⟩)).utf8ByteSize =
      (4 * (78 + j.val.utf8ByteSize + (codec.formatTime t).utf8ByteSize + id.val.utf8ByteSize) +
        2) / 3 := by
  have htexts : ∀ text ∈ [j.val, codec.formatTime t, id.val], PlainText text :=
    List.forall_mem_cons.mpr ⟨j.plain (by decide), List.forall_mem_cons.mpr
      ⟨hcompact.time t, List.forall_mem_singleton.mpr (id.plain (by decide))⟩⟩
  have hsize : (artifactText codec j (ArtifactCursor.key ⟨j.val, t, id.val⟩)).utf8ByteSize =
      (4 * jsonBytes "job_artifacts" [("job_id", j.val), ("created_at", codec.formatTime t),
        ("artifact_id", id.val)] + 2) / 3 :=
    cursorText_bytes hcodec hcompact (ArtifactCursor.serde_lawful hcodec) (List.cons_ne_nil _ _)
      (by decide) (show ∀ n ∈ ["job_id", "created_at", "artifact_id"], PlainText n by decide) htexts
  have hbytes : jsonBytes "job_artifacts" [("job_id", j.val), ("created_at", codec.formatTime t),
      ("artifact_id", id.val)] = 33 + (6 + j.val.utf8ByteSize + 6 +
        (10 + (codec.formatTime t).utf8ByteSize + 6 + (11 + id.val.utf8ByteSize + 6 + 0))) := rfl
  rw [hsize, hbytes]
  congr 2
  omega

theorem workerText_bytes (w : WorkerId) (t : Time) :
    (workerText codec (WorkerCursor.key ⟨t, w.val⟩)).utf8ByteSize =
      (4 * (61 + (codec.formatTime t).utf8ByteSize + w.val.utf8ByteSize) + 2) / 3 := by
  have htexts : ∀ text ∈ [codec.formatTime t, w.val], PlainText text :=
    List.forall_mem_cons.mpr
      ⟨hcompact.time t, List.forall_mem_singleton.mpr (w.plain (by decide))⟩
  have hsize : (workerText codec (WorkerCursor.key ⟨t, w.val⟩)).utf8ByteSize =
      (4 * jsonBytes "workers" [("registered_at", codec.formatTime t), ("worker_id", w.val)] +
        2) / 3 :=
    cursorText_bytes hcodec hcompact (WorkerCursor.serde_lawful hcodec) (List.cons_ne_nil _ _)
      (by decide) (show ∀ n ∈ ["registered_at", "worker_id"], PlainText n by decide) htexts
  have hbytes : jsonBytes "workers" [("registered_at", codec.formatTime t),
      ("worker_id", w.val)] =
      27 + (13 + (codec.formatTime t).utf8ByteSize + 6 + (9 + w.val.utf8ByteSize + 6 + 0)) := rfl
  rw [hsize, hbytes]
  congr 2
  omega

theorem profileText_bytes (id : RuntimeProfileId) :
    (profileText codec id.val).utf8ByteSize = (4 * (52 + id.val.utf8ByteSize) + 2) / 3 := by
  have htexts : ∀ text ∈ [id.val], PlainText text :=
    List.forall_mem_singleton.mpr (id.plain (by decide))
  have hsize : (profileText codec id.val).utf8ByteSize =
      (4 * jsonBytes "runtime_profiles" [("profile_id", id.val)] + 2) / 3 :=
    cursorText_bytes hcodec hcompact RuntimeProfileCursor.serde_lawful (List.cons_ne_nil _ _)
      (by decide) (show ∀ n ∈ ["profile_id"], PlainText n by decide) htexts
  have hbytes : jsonBytes "runtime_profiles" [("profile_id", id.val)] =
      36 + (10 + id.val.utf8ByteSize + 6 + 0) := rfl
  rw [hsize, hbytes]
  congr 2
  omega

end Sizes

/-! ## Routes -/

namespace Api

variable {services : ApiServices} {auth : AuthContext} {s s' : ApiStore} {cursor : Option String}

/-- A check that passes leaves the store. -/
theorem check_eq_ok {α : Type} {r : Except ApiError α} {a : α} :
    check r s = (.ok a, s') ↔ r = .ok a ∧ s = s' := by
  unfold check
  rw [Script.check_eq_ok, Tx.mapError_eq_ok]

theorem ownedJob_eq_ok {j : JobId} {job : Job} (h : ownedJob auth j s = (.ok job, s')) :
    s = s' := by
  by_cases hhidden : s.HidesJob auth j
  · rw [ownedJob_hidden hhidden] at h
    cases h
  · unfold ApiStore.HidesJob at hhidden
    simp only [not_forall, not_not] at hhidden
    obtain ⟨row, hjob, howned⟩ := hhidden
    rw [ownedJob_owned hjob howned] at h
    cases h
    rfl

/-- The signed artifacts are the stored ones. -/
theorem signArtifacts_eq_ok {stored : List StoredArtifact} {items : List Artifact}
    (h : signArtifacts services stored s = (.ok items, s')) :
    items.map (·.id) = stored.map (·.artifact.id) := by
  induction stored generalizing items s s' with
  | nil =>
      cases h
      rfl
  | cons a rest ih =>
      simp only [signArtifacts, Script.bind_eq_ok, check_eq_ok] at h
      obtain ⟨⟨url, expiresAt⟩, _, ⟨_, rfl⟩, signed, s₁, hrest, hlast⟩ := h
      cases hlast
      rw [List.map_cons, List.map_cons, ih hrest]

section Pages

variable (hcodec : services.codec.Lawful)
include hcodec

theorem listJobs_eq_ok {p : ProjectId} {status : Option JobState} {page : Page JobSummary String}
    (h : listJobs services auth p status cursor s = (.ok page, s')) :
    ∃ c, cursor.mapM (JobCursor.decode services.codec) = .ok c ∧
      page = (jobListing p status).present (jobText services.codec) JobListQuery.defaultLimit
        (c.map JobCursor.key) s.archive := by
  simp only [listJobs, Script.bind_eq_ok, check_eq_ok] at h
  obtain ⟨_, _, ⟨_, rfl⟩, _, _, ⟨_, rfl⟩, _, _, ⟨_, rfl⟩, h⟩ := h
  obtain ⟨db, hcommits, _⟩ := Script.ofTx_eq_ok.mp h
  have hread := hcommits
  simp only [RunAnywhere.listJobs, Tx.bind_commits, Tx.ofExcept_commits] at hread
  obtain ⟨_, _, _, c, _, ⟨hdecode, rfl⟩, _⟩ := hread
  have hshown := listJobs_shown hcodec p status (by decide : 0 < JobListQuery.defaultLimit)
    (by decide) s.archive hdecode
  exact ⟨c, hdecode, (hcommits.unique hshown).1⟩

theorem listJobArtifacts_eq_ok {j : JobId} {page : Page Artifact String}
    (h : listJobArtifacts services auth j cursor s = (.ok page, s')) :
    ∃ c stored, cursor.mapM (decodeRouteCursor services.codec (ArtifactCursor.serde services.codec)
        "job_artifacts") = .ok c ∧
      stored = (artifactListing j).present (artifactText services.codec j) controlPlanePageSize
        (c.map ArtifactCursor.key) s.archive ∧
      page.items.map (·.id) = stored.items.map (·.artifact.id) ∧
      page.nextCursor = stored.nextCursor := by
  simp only [listJobArtifacts, Script.bind_eq_ok, check_eq_ok] at h
  obtain ⟨_, _, ⟨_, rfl⟩, _, _, ⟨_, rfl⟩, job, s₁, howned, stored, s₂, hlist, items, s₃, hsigned,
    hpage⟩ := h
  cases hpage
  obtain rfl := ownedJob_eq_ok howned
  obtain ⟨a, hcommits, _⟩ := Script.ofTx_eq_ok.mp hlist
  have hread := hcommits
  simp only [listArtifactsPage, Tx.bind_commits, Tx.ofExcept_commits, Tx.require_commits] at hread
  obtain ⟨c, _, ⟨hdecode, rfl⟩, _, _, ⟨hjob, rfl⟩, _⟩ := hread
  have hshown := listArtifactsPage_shown hcodec j s.archive hdecode hjob
  exact ⟨c, stored, hdecode, (hcommits.unique hshown).1, signArtifacts_eq_ok hsigned, rfl⟩

theorem listWorkers_eq_ok {page : Page WorkerStatus String}
    (h : listWorkers services auth cursor s = (.ok page, s')) :
    ∃ c, cursor.mapM (decodeRouteCursor services.codec (WorkerCursor.serde services.codec)
        "workers") = .ok c ∧
      page = workerListing.present (workerText services.codec) controlPlanePageSize
        (c.map WorkerCursor.key) s.archive := by
  simp only [listWorkers, Script.bind_eq_ok, check_eq_ok] at h
  obtain ⟨_, _, ⟨_, rfl⟩, _, _, ⟨_, rfl⟩, h⟩ := h
  obtain ⟨db, hcommits, _⟩ := Script.ofTx_eq_ok.mp h
  have hread := hcommits
  simp only [listWorkersPage, Tx.bind_commits, Tx.ofExcept_commits] at hread
  obtain ⟨c, _, ⟨hdecode, rfl⟩, _⟩ := hread
  have hshown := listWorkersPage_shown hcodec s.archive hdecode
  exact ⟨c, hdecode, (hcommits.unique hshown).1⟩

theorem listRuntimeProfiles_eq_ok {page : Page RuntimeProfile String}
    (h : listRuntimeProfiles services auth cursor s = (.ok page, s')) :
    ∃ c, cursor.mapM (decodeRouteCursor services.codec RuntimeProfileCursor.serde
        "runtime_profiles") = .ok c ∧
      page = profileListing.present (profileText services.codec) controlPlanePageSize
        (c.map RuntimeProfileCursor.profileId) s.archive := by
  simp only [listRuntimeProfiles, Script.bind_eq_ok, check_eq_ok] at h
  obtain ⟨_, _, ⟨_, rfl⟩, _, _, ⟨_, rfl⟩, h⟩ := h
  obtain ⟨db, hcommits, _⟩ := Script.ofTx_eq_ok.mp h
  have hread := hcommits
  simp only [listRuntimeProfilesPage, Tx.bind_commits, Tx.ofExcept_commits] at hread
  obtain ⟨c, _, ⟨hdecode, rfl⟩, _⟩ := hread
  have hshown := listRuntimeProfilesPage_shown hcodec s.archive hdecode
  refine ⟨c, hdecode, ?_⟩
  split at hshown
  · exact (hcommits.unique hshown).1
  · cases hcommits.symm.trans hshown

end Pages

end Api

/-! ## The headline -/

/-- When a cursor that a route hands out follows on: the row that closes the page is short. -/
structure HandedCursors (services : ApiServices) (s : ApiStore) : Prop where
  jobs : ∀ auth p status cursor page s',
    Api.listJobs services auth p status cursor s = (.ok page, s') →
    ∃ c, cursor.mapM (JobCursor.decode services.codec) = .ok c ∧
      (Follows services.codec (JobCursor.serde services.codec) "jobs" jobCursor
          (jobListing p status) (·.id) s.archive page ↔
        ∀ row, Keyset.Closes (jobListing p status).key JobListQuery.defaultLimit
          (c.map JobCursor.key) ((jobListing p status).matching s.archive) row →
          (services.codec.formatTime row.2.createdAt).utf8ByteSize + row.1.val.utf8ByteSize ≤ 1484)
  artifacts : ∀ auth (j : JobId) cursor page s',
    Api.listJobArtifacts services auth j cursor s = (.ok page, s') →
    ∃ c, cursor.mapM (decodeRouteCursor services.codec (ArtifactCursor.serde services.codec)
        "job_artifacts") = .ok c ∧
      (Follows services.codec (ArtifactCursor.serde services.codec) "job_artifacts"
          (artifactCursor j) (artifactListing j) (·.id) s.archive page ↔
        ∀ row, Keyset.Closes (artifactListing j).key controlPlanePageSize
          (c.map ArtifactCursor.key) ((artifactListing j).matching s.archive) row →
          j.val.utf8ByteSize + (services.codec.formatTime row.2.createdAt).utf8ByteSize +
            row.1.val.utf8ByteSize ≤ 1458)
  workers : ∀ auth cursor page s', Api.listWorkers services auth cursor s = (.ok page, s') →
    ∃ c, cursor.mapM (decodeRouteCursor services.codec (WorkerCursor.serde services.codec)
        "workers") = .ok c ∧
      (Follows services.codec (WorkerCursor.serde services.codec) "workers" workerCursor
          workerListing (·.workerId) s.archive page ↔
        ∀ row, Keyset.Closes workerListing.key controlPlanePageSize (c.map WorkerCursor.key)
          (workerListing.matching s.archive) row →
          (services.codec.formatTime row.2.registeredAt).utf8ByteSize + row.1.val.utf8ByteSize ≤
            1475)
  profiles : ∀ auth cursor page s',
    Api.listRuntimeProfiles services auth cursor s = (.ok page, s') →
    ∃ c, cursor.mapM (decodeRouteCursor services.codec RuntimeProfileCursor.serde
        "runtime_profiles") = .ok c ∧
      (Follows services.codec RuntimeProfileCursor.serde "runtime_profiles"
          RuntimeProfileCursor.mk profileListing (·.id) s.archive page ↔
        ∀ row, Keyset.Closes profileListing.key controlPlanePageSize
          (c.map RuntimeProfileCursor.profileId) (profileListing.matching s.archive) row →
          row.1.val.utf8ByteSize ≤ 1484)

/-- **Cursors come back.** The cursor of a page is accepted by its route, and read as the key of the
page's last item, exactly if the row that closes the page fits 1536 bytes of JSON. -/
theorem handed_cursors_follow_iff (services : ApiServices) (hcodec : services.codec.Lawful)
    (hcompact : services.codec.Compact) (s : ApiStore) : HandedCursors services s := by
  constructor
  · intro auth p status cursor page s' h
    obtain ⟨c, hdecode, rfl⟩ := Api.listJobs_eq_ok hcodec h
    refine ⟨c, hdecode, ?_⟩
    have hitems : ((jobListing p status).present (jobText services.codec) JobListQuery.defaultLimit
        (c.map JobCursor.key) s.archive).items.map (·.id) = (Keyset.page (jobListing p status).key
          JobListQuery.defaultLimit (c.map JobCursor.key)
          ((jobListing p status).matching s.archive)).1.map (jobListing p status).id :=
      List.map_map
    have hfollows := follows_iff ((jobListing_lawful p status).matching_keys s.archive)
      (by decide) rfl hitems
      (fun k => decodeRouteCursor_cursorText hcodec (JobCursor.serde_lawful hcodec) "jobs"
        (jobCursor k))
      (fun r _ => jobText_bytes hcodec hcompact r.1 r.2.createdAt) (fun r => by omega)
    rw [hfollows]
    refine forall₂_congr fun r _ => ?_
    omega
  · intro auth j cursor page s' h
    obtain ⟨c, stored, hdecode, rfl, hsigned, hnext⟩ := Api.listJobArtifacts_eq_ok hcodec h
    refine ⟨c, hdecode, ?_⟩
    have hitems : page.items.map (·.id) = (Keyset.page (artifactListing j).key
        controlPlanePageSize (c.map ArtifactCursor.key)
        ((artifactListing j).matching s.archive)).1.map (artifactListing j).id :=
      hsigned.trans List.map_map
    have hselected : ∀ r ∈ (artifactListing j).matching s.archive,
        (artifactText services.codec j ((artifactListing j).key r)).utf8ByteSize =
          (4 * (78 + j.val.utf8ByteSize + (services.codec.formatTime r.2.createdAt).utf8ByteSize +
            r.1.val.utf8ByteSize) + 2) / 3 :=
      fun r _ => artifactText_bytes hcodec hcompact j r.1 r.2.createdAt
    have hfollows := follows_iff ((artifactListing_lawful j).matching_keys s.archive)
      pageSize_pos hnext hitems
      (fun k => decodeRouteCursor_cursorText hcodec (ArtifactCursor.serde_lawful hcodec)
        "job_artifacts" (artifactCursor j k)) hselected (fun r => by omega)
    rw [hfollows]
    refine forall₂_congr fun r _ => ?_
    omega
  · intro auth cursor page s' h
    obtain ⟨c, hdecode, rfl⟩ := Api.listWorkers_eq_ok hcodec h
    refine ⟨c, hdecode, ?_⟩
    have hitems : (workerListing.present (workerText services.codec) controlPlanePageSize
        (c.map WorkerCursor.key) s.archive).items.map (·.workerId) = (Keyset.page workerListing.key
          controlPlanePageSize (c.map WorkerCursor.key)
          (workerListing.matching s.archive)).1.map workerListing.id :=
      List.map_map
    have hfollows := follows_iff (workerListing_lawful.matching_keys s.archive)
      pageSize_pos rfl hitems
      (fun k => decodeRouteCursor_cursorText hcodec (WorkerCursor.serde_lawful hcodec) "workers"
        (workerCursor k))
      (fun r _ => workerText_bytes hcodec hcompact r.1 r.2.registeredAt) (fun r => by omega)
    rw [hfollows]
    refine forall₂_congr fun r _ => ?_
    omega
  · intro auth cursor page s' h
    obtain ⟨c, hdecode, rfl⟩ := Api.listRuntimeProfiles_eq_ok hcodec h
    refine ⟨c, hdecode, ?_⟩
    have hitems : (profileListing.present (profileText services.codec) controlPlanePageSize
        (c.map RuntimeProfileCursor.profileId) s.archive).items.map (·.id) =
          (Keyset.page profileListing.key controlPlanePageSize
            (c.map RuntimeProfileCursor.profileId)
            (profileListing.matching s.archive)).1.map profileListing.id :=
      List.map_map
    have hkeys := (profileListing_lawful fun _ => True).matching_keys s.archive
    have hfollows := follows_iff hkeys pageSize_pos rfl hitems
      (fun k => decodeRouteCursor_cursorText hcodec RuntimeProfileCursor.serde_lawful
        "runtime_profiles" (RuntimeProfileCursor.mk k))
      (fun r _ => profileText_bytes hcodec hcompact r.1) (fun r => by omega)
    rw [hfollows]
    refine forall₂_congr fun r _ => ?_
    omega

theorem handed_cursors_follow_sample :
    HandedCursors Sample.services (Sample.store (Sample.after Sample.created)) :=
  handed_cursors_follow_iff Sample.services textCodec_lawful textCodec_compact _

namespace Sample

def longRow : RuntimeProfileRow :=
  ⟨34, "pixel", .x86_64, .x86_64, .redroid, "image", .sharedKernelPrivileged⟩

/-- One profile more than a page holds, each with an identifier of more than 1500 letters. -/
def longProfiles : Table RuntimeProfileId RuntimeProfileRow where
  rows := (List.range 51).map fun n => (lettered "rtp_" (n + 1500), longRow)
  nodup := by
    rw [List.map_map]
    refine List.nodup_range.map fun m n h => ?_
    have heq := lettered_inj h
    omega

def longStore : ApiStore := store (Db.empty { catalog with runtimeProfiles := longProfiles })

def admin : AuthContext := ⟨"admin", none, none, [.admin]⟩

theorem lettered_bytes (n : Nat) :
    (lettered "rtp_" n : RuntimeProfileId).val.utf8ByteSize = n + 5 := by
  have hplain := (lettered "rtp_" n : RuntimeProfileId).plain (by decide)
  rw [← hplain.bytes]
  show (String.ofList ("rtp_".toList ++ List.replicate (n + 1) 'a')).toList.length = n + 5
  rw [String.toList_ofList, List.length_append, List.length_replicate]
  show 4 + (n + 1) = n + 5
  omega

theorem longProfiles_long {r : RuntimeProfileId × RuntimeProfileRow} (h : r ∈ longProfiles.rows) :
    1484 < r.1.val.utf8ByteSize ∧ r.2 = longRow := by
  obtain ⟨n, _, rfl⟩ := List.mem_map.mp h
  refine ⟨?_, rfl⟩
  show 1484 < (lettered "rtp_" (n + 1500) : RuntimeProfileId).val.utf8ByteSize
  rw [lettered_bytes]
  omega

end Sample

/-- **A cursor that is refused.** The first page of long profiles. -/
theorem long_cursor_refused :
    ∃ (s : ApiStore) (page : Page RuntimeProfile String) (cursor : String),
      (repository fun _ => True).Reachable s.db ∧
      Api.listRuntimeProfiles Sample.services Sample.admin none s = (.ok page, s) ∧
      page.nextCursor = some cursor ∧ validateCursor (some cursor) ≠ .ok () := by
  have hvalid : Sample.longStore.archive.db.ValidProfiles := by
    intro id row hrow
    have hmem := (Table.mem_rows_iff _ id row).mpr hrow
    obtain rfl : row = Sample.longRow := (Sample.longProfiles_long hmem).2
    rfl
  -- the page is the keyset page of the profiles
  have hshown := listRuntimeProfilesPage_shown textCodec_lawful Sample.longStore.archive
    (rfl : (none : Option String).mapM (decodeRouteCursor textCodec RuntimeProfileCursor.serde
      "runtime_profiles") = .ok none)
  rw [if_pos (validProfiles_page hvalid _ _)] at hshown
  have hpage : Api.listRuntimeProfiles Sample.services Sample.admin none Sample.longStore =
      (.ok (profileListing.present (profileText textCodec) controlPlanePageSize none
        Sample.longStore.archive), Sample.longStore) := by
    show Api.onDb (listRuntimeProfilesPage textCodec none) Sample.longStore = _
    exact Script.ofTx_ok hshown
  -- there is a row more than the page holds, and its last row is long
  have hmatching : profileListing.matching Sample.longStore.archive = Sample.longProfiles.rows :=
    List.filter_true _
  have hlength : (Keyset.ordered profileListing.key none
      (profileListing.matching Sample.longStore.archive)).length = 51 := by
    unfold Keyset.ordered
    rw [List.length_insertionSort, hmatching]
    show (List.filter (fun _ => true) Sample.longProfiles.rows).length = 51
    rw [List.filter_true]
    show ((List.range 51).map _).length = 51
    rw [List.length_map, List.length_range]
  have hmore : (Keyset.page profileListing.key controlPlanePageSize none
      (profileListing.matching Sample.longStore.archive)).2 = true := by
    rw [Keyset.page_eq, hlength]
    rfl
  have hfull := Keyset.page_full hmore
  obtain ⟨r, hlast⟩ : ∃ r, (Keyset.page profileListing.key controlPlanePageSize none
      (profileListing.matching Sample.longStore.archive)).1.getLast? = some r := by
    apply Option.ne_none_iff_exists'.mp
    intro hnone
    rw [List.getLast?_eq_none_iff.mp hnone] at hfull
    exact absurd hfull (by decide)
  have hr : r ∈ Sample.longProfiles.rows := by
    rw [← hmatching]
    exact (Keyset.mem_page (List.mem_of_getLast? hlast)).1
  refine ⟨Sample.longStore, _, profileText textCodec r.1.val, .init ⟨_, rfl⟩, hpage, ?_, ?_⟩
  · unfold Listing.present Listing.toPage
    simp only [hmore, hlast]
    rfl
  · rw [ne_eq, validateCursor_eq_ok_iff, profileText_bytes textCodec_lawful textCodec_compact]
    have hlong := (Sample.longProfiles_long hr).1
    omega

end RunAnywhere
