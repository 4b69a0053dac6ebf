import RunAnywhere.Contracts.Api
import RunAnywhere.Logic.Base64
import RunAnywhere.Logic.Table
import RunAnywhere.Repository.Error

/-!
# Projects and their API keys

`repository/src/auth.rs` over `projects` and `api_keys` of `0001_projects_api_keys.up.sql`. A key
is stored as the digest of its text; the digest is a parameter.

* **rows** — what a row holds and the CHECK constraints (`ApiKeyRow.Checks`);
* **statements** — inserts fail on a key, a hash or an identifier that is taken; an update fails
  when no row matches;
* **later** — what every call keeps (`KeyDb.Later`): a key is never deleted, only its stamps
  change, and a revoked key does not change at all.
-/

namespace RunAnywhere

open Logic

abbrev ApiKeyId := Ident "key_"

/-! ## Rows -/

/-- `api_keys`, without its key. -/
structure ApiKeyRow (η : Type) where
  projectId : ProjectId
  keyHash : η
  scopes : List AuthScope
  createdAt : Time
  lastUsedAt : Option Time
  revokedAt : Option Time
  deriving DecidableEq

/-- The CHECK constraints of `api_keys`. -/
structure ApiKeyRow.Checks {η : Type} (r : ApiKeyRow η) : Prop where
  scopes : r.scopes ≠ []
  lastUsedOrder : ∀ at_ ∈ r.lastUsedAt, r.createdAt ≤ at_
  revokedOrder : ∀ at_ ∈ r.revokedAt, r.createdAt ≤ at_

instance {η : Type} : DecidablePred (@ApiKeyRow.Checks η) := fun r =>
  decidable_of_iff (r.scopes ≠ [] ∧ (∀ at_ ∈ r.lastUsedAt, r.createdAt ≤ at_) ∧
      ∀ at_ ∈ r.revokedAt, r.createdAt ≤ at_)
    ⟨fun ⟨a, b, c⟩ => ⟨a, b, c⟩, fun h => ⟨h.scopes, h.lastUsedOrder, h.revokedOrder⟩⟩

/-- The CHECK constraints of `projects`. -/
structure Project.Checks (r : Project) : Prop where
  name : btrimEmpty r.name = false
  owner : btrimEmpty r.owner = false

instance : DecidablePred Project.Checks := fun r =>
  decidable_of_iff (btrimEmpty r.name = false ∧ btrimEmpty r.owner = false)
    ⟨fun ⟨a, b⟩ => ⟨a, b⟩, fun h => ⟨h.name, h.owner⟩⟩

structure KeyDb (η : Type) where
  projects : Table.Checked ProjectId Project.Checks
  apiKeys : Table.Checked ApiKeyId (@ApiKeyRow.Checks η)

abbrev KeyTx (η : Type) := Tx RepositoryError (KeyDb η)

structure ApiKeyRecord where
  id : ApiKeyId
  projectId : ProjectId
  scopes : List AuthScope
  createdAt : Time
  lastUsedAt : Option Time
  revokedAt : Option Time
  deriving DecidableEq

/-- `into_record`. -/
def ApiKeyRow.intoRecord {η : Type} (r : ApiKeyRow η) (id : ApiKeyId) : ApiKeyRecord where
  id := id
  projectId := r.projectId
  scopes := r.scopes
  createdAt := r.createdAt
  lastUsedAt := r.lastUsedAt
  revokedAt := r.revokedAt

structure CreatedApiKey where
  key : String
  record : ApiKeyRecord
  deriving DecidableEq

structure CreatedProject where
  project : Project
  apiKey : CreatedApiKey
  deriving DecidableEq

namespace KeyDb

variable {η : Type}

def empty : KeyDb η := ⟨Table.empty, Table.empty⟩

def project? (s : KeyDb η) (id : ProjectId) : Option Project := s.projects.row? id

def key? (s : KeyDb η) (id : ApiKeyId) : Option (ApiKeyRow η) := s.apiKeys.row? id

end KeyDb

section Calls

variable {η : Type} [DecidableEq η]

/-! ## Statements -/

/-- `INSERT INTO projects`, with the quotas of `0008_project_job_quotas.up.sql`. -/
def insertProject (id : ProjectId) (name owner : String) (now : Time) : KeyTx η Project := fun s =>
  let row : Project := ⟨id, name, owner, 2, 100, now⟩
  if h : row.Checks then
    match s.project? id with
    | some _ => .error (.sqlx (.uniqueViolation "projects_pkey"))
    | none => .ok (row, { s with projects := s.projects.put id ⟨row, h⟩ })
  else .error (.sqlx (.checkViolation "projects"))

/-- `INSERT INTO api_keys`. -/
def insertApiKey (id : ApiKeyId) (projectId : ProjectId) (hash : η) (scopes : List AuthScope)
    (now : Time) : KeyTx η ApiKeyRecord := fun s =>
  let row : ApiKeyRow η := ⟨projectId, hash, scopes, now, none, none⟩
  if h : row.Checks then
    if (s.key? id).isSome then .error (.sqlx (.uniqueViolation "api_keys_pkey"))
    else if s.apiKeys.rows.any fun x => decide (x.2.val.keyHash = hash) then
      .error (.sqlx (.uniqueViolation "api_keys_key_hash_key"))
    else if (s.project? projectId).isNone then
      .error (.sqlx (.foreignKeyViolation "api_keys_project_id_fkey"))
    else .ok (row.intoRecord id, { s with apiKeys := s.apiKeys.put id ⟨row, h⟩ })
  else .error (.sqlx (.checkViolation "api_keys"))

/-- `UPDATE api_keys SET … WHERE id = id AND guard RETURNING …`. -/
def updateApiKey (id : ApiKeyId) (guard : ApiKeyRow η → Bool) (set : ApiKeyRow η → ApiKeyRow η) :
    KeyTx η (Option ApiKeyRecord) := fun s =>
  match s.key? id with
  | none => .ok (none, s)
  | some row =>
      if guard row then
        if h : (set row).Checks then
          .ok (some ((set row).intoRecord id), { s with apiKeys := s.apiKeys.put id ⟨set row, h⟩ })
        else .error (.sqlx (.checkViolation "api_keys"))
      else .ok (none, s)

/-! ## Operations -/

/-- `validate_project`. -/
def validateProject (name owner : String) : Except RepositoryError Unit :=
  if isBlank name then .error (.validation "project name must not be blank")
  else if isBlank owner then .error (.validation "project owner must not be blank")
  else .ok ()

/-- `validate_scopes`. -/
def validateScopes (scopes : List AuthScope) : Except RepositoryError (List AuthScope) :=
  if scopes.isEmpty then .error (.validation "an API key must have at least one scope")
  else if ¬ scopes.Nodup then .error (.validation "API key scopes must be unique")
  else .ok scopes

/-- `generate_api_key`, of the bytes it draws. -/
def generateApiKey (random : Vector UInt8 32) : String :=
  "raa_sk_" ++ String.ofList (Base64.encode random.toList)

/-- What a call draws. -/
structure KeyDraw where
  projectId : ProjectId
  keyId : ApiKeyId
  random : Vector UInt8 32

variable (digest : String → η)

/-- `create_project`. -/
def createProject (id : ProjectId) (name owner : String) (now : Time) : KeyTx η Project := do
  Tx.ofExcept (validateProject name owner)
  classifyWrite (insertProject id name owner now) "project already exists"

/-- `create_project_with_api_key`. -/
def createProjectWithApiKey (draw : KeyDraw) (name owner : String) (scopes : List AuthScope)
    (now : Time) : KeyTx η CreatedProject := do
  Tx.ofExcept (validateProject name owner)
  let scopes ← Tx.ofExcept (validateScopes scopes)
  let plaintext := generateApiKey draw.random
  let project ← classifyWrite (insertProject draw.projectId name owner now)
    "project already exists"
  let record ← classifyWrite (insertApiKey draw.keyId project.id (digest plaintext) scopes now)
    "API key already exists"
  pure ⟨project, plaintext, record⟩

/-- `create_api_key`. -/
def createApiKey (draw : KeyDraw) (scopes : List AuthScope) (now : Time) :
    KeyTx η CreatedApiKey := do
  let scopes ← Tx.ofExcept (validateScopes scopes)
  let plaintext := generateApiKey draw.random
  let record ← classifyWrite (insertApiKey draw.keyId draw.projectId (digest plaintext) scopes now)
    "API key already exists"
  pure ⟨plaintext, record⟩

/-- `find_api_key_by_hash`. -/
def findApiKeyByHash (hash : η) : KeyTx η (Option ApiKeyRecord) :=
  Tx.read fun s => (s.apiKeys.rows.find? fun x => decide (x.2.val.keyHash = hash)).map fun x =>
    x.2.val.intoRecord x.1

/-- `update_api_key_timestamp`. -/
def updateApiKeyTimestamp (id : ApiKeyId) (guard : ApiKeyRow η → Bool)
    (set : ApiKeyRow η → ApiKeyRow η) : KeyTx η ApiKeyRecord := do
  let row ← updateApiKey id guard set
  Tx.okOr row (.notFound "API key" id.val)

/-- `revoke_api_key`. -/
def revokeApiKey (id : ApiKeyId) (now : Time) : KeyTx η ApiKeyRecord :=
  updateApiKeyTimestamp id (fun _ => true) fun row =>
    { row with revokedAt := row.revokedAt <|> some now }

/-- `touch_api_key_last_used`. -/
def touchApiKeyLastUsed (id : ApiKeyId) (now : Time) : KeyTx η ApiKeyRecord :=
  updateApiKeyTimestamp id (fun row => row.revokedAt.isNone) fun row =>
    { row with lastUsedAt := some now }

end Calls

/-! ## What calls keep -/

namespace ApiKeyRow

variable {η : Type} {r r' r'' : ApiKeyRow η}

/-- What lasts of a key: a revoked one does not change at all. -/
structure Keeps (r r' : ApiKeyRow η) : Prop where
  projectId : r'.projectId = r.projectId
  keyHash : r'.keyHash = r.keyHash
  scopes : r'.scopes = r.scopes
  createdAt : r'.createdAt = r.createdAt
  used : r.lastUsedAt.isSome = true → r'.lastUsedAt.isSome = true
  frozen : r.revokedAt.isSome = true → r' = r

theorem Keeps.refl (r : ApiKeyRow η) : r.Keeps r := ⟨rfl, rfl, rfl, rfl, fun h => h, fun _ => rfl⟩

theorem Keeps.trans (h : r.Keeps r') (h' : r'.Keeps r'') : r.Keeps r'' where
  projectId := h'.projectId.trans h.projectId
  keyHash := h'.keyHash.trans h.keyHash
  scopes := h'.scopes.trans h.scopes
  createdAt := h'.createdAt.trans h.createdAt
  used hr := h'.used (h.used hr)
  frozen hr := by
    have heq := h.frozen hr
    subst heq
    exact h'.frozen hr

end ApiKeyRow

namespace KeyDb

variable {η : Type} {s s' s'' : KeyDb η}

/-- What lasts of projects and keys: nothing is deleted. -/
structure Later (s s' : KeyDb η) : Prop where
  projects : ∀ id p, s.project? id = some p → s'.project? id = some p
  keys : ∀ id r, s.key? id = some r → ∃ r', s'.key? id = some r' ∧ r.Keeps r'

theorem Later.refl (s : KeyDb η) : s.Later s :=
  ⟨fun _ _ h => h, fun _ r h => ⟨r, h, .refl r⟩⟩

theorem Later.trans (h : s.Later s') (h' : s'.Later s'') : s.Later s'' where
  projects id p hp := h'.projects id p (h.projects id p hp)
  keys id r hr := by
    obtain ⟨r', hr', hkeeps⟩ := h.keys id r hr
    obtain ⟨r'', hr'', hkeeps'⟩ := h'.keys id r' hr'
    exact ⟨r'', hr'', hkeeps.trans hkeeps'⟩

/-- A key that is live was live. -/
theorem Later.live (h : s.Later s') {id : ApiKeyId} {r r' : ApiKeyRow η} (hr : s.key? id = some r)
    (hr' : s'.key? id = some r') (hlive : r'.revokedAt = none) : r.revokedAt = none := by
  obtain ⟨q, hq, hkeeps⟩ := h.keys id r hr
  cases hq.symm.trans hr'
  by_contra hrevoked
  have hsame := hkeeps.frozen (Option.isSome_iff_ne_none.mpr hrevoked)
  exact hrevoked (hsame ▸ hlive)

/-- A key that is revoked stays as it is. -/
theorem Later.revoked (h : s.Later s') {id : ApiKeyId} {r : ApiKeyRow η} (hr : s.key? id = some r)
    (hrevoked : r.revokedAt.isSome = true) : s'.key? id = some r := by
  obtain ⟨q, hq, hkeeps⟩ := h.keys id r hr
  rw [hkeeps.frozen hrevoked] at hq
  exact hq

/-- The rows hang together: a hash is of one key, and keys are of projects. -/
structure Sound (s : KeyDb η) : Prop where
  unique : ∀ id id' r r', s.key? id = some r → s.key? id' = some r' → r.keyHash = r'.keyHash →
    id = id'
  owned : ∀ id r, s.key? id = some r → (s.project? r.projectId).isSome = true

theorem sound_empty : (empty : KeyDb η).Sound :=
  ⟨fun _ _ _ _ h => (by cases h), fun _ _ h => (by cases h)⟩

/-- Every scope of a key is one of these. -/
def Grants (granted : List AuthScope) (s : KeyDb η) : Prop :=
  ∀ id r, s.key? id = some r → ∀ scope ∈ r.scopes, scope ∈ granted

/-- A call keeps what lasts, the constraints, and the scopes granted. -/
structure Step (granted : List AuthScope) (s s' : KeyDb η) : Prop where
  later : s.Later s'
  sound : s.Sound → s'.Sound
  grants : s.Grants granted → s'.Grants granted

variable {granted : List AuthScope}

theorem Step.refl (s : KeyDb η) : s.Step granted s := ⟨.refl s, id, id⟩

theorem Step.trans (h : s.Step granted s') (h' : s'.Step granted s'') : s.Step granted s'' :=
  ⟨h.later.trans h'.later, fun hs => h'.sound (h.sound hs), fun hg => h'.grants (h.grants hg)⟩

end KeyDb

section Steps

open KeyDb

variable {η : Type} {s s' : KeyDb η} {granted : List AuthScope}

/-- A key changes in what may change. -/
theorem put_key_step {id : ApiKeyId} {old row : ApiKeyRow η} (hrow : row.Checks)
    (hold : s.key? id = some old) (hkeeps : old.Keeps row) :
    s.Step granted { s with apiKeys := s.apiKeys.put id ⟨row, hrow⟩ } := by
  have hkey : ∀ id', ({ s with apiKeys := s.apiKeys.put id ⟨row, hrow⟩ } : KeyDb η).key? id' =
      if id' = id then some row else s.key? id' := Table.row?_put s.apiKeys id row hrow
  -- every row is one from before, in what lasts
  have hsource : ∀ id' r', ({ s with apiKeys := s.apiKeys.put id ⟨row, hrow⟩ } : KeyDb η).key? id'
      = some r' → ∃ r, s.key? id' = some r ∧ r.Keeps r' := by
    intro id' r' hr'
    rw [hkey] at hr'
    split at hr'
    · next heq =>
        cases hr'
        subst heq
        exact ⟨old, hold, hkeeps⟩
    · exact ⟨r', hr', .refl r'⟩
  refine ⟨⟨fun _ _ hp => hp, fun id' r hr => ?_⟩, fun hs => ⟨?_, ?_⟩, fun hg => ?_⟩
  · rw [hkey]
    split
    · next heq =>
        subst heq
        cases hold.symm.trans hr
        exact ⟨row, rfl, hkeeps⟩
    · exact ⟨r, hr, .refl r⟩
  · intro id₁ id₂ r₁ r₂ h₁ h₂ heq
    obtain ⟨q₁, hq₁, hk₁⟩ := hsource id₁ r₁ h₁
    obtain ⟨q₂, hq₂, hk₂⟩ := hsource id₂ r₂ h₂
    exact hs.unique id₁ id₂ q₁ q₂ hq₁ hq₂ (by rw [← hk₁.keyHash, heq, hk₂.keyHash])
  · intro id' r' hr'
    obtain ⟨r, hr, hk⟩ := hsource id' r' hr'
    rw [hk.projectId]
    exact hs.owned id' r hr
  · intro id' r' hr' scope hscope
    obtain ⟨r, hr, hk⟩ := hsource id' r' hr'
    rw [hk.scopes] at hscope
    exact hg id' r hr scope hscope

/-- A project is new. -/
theorem put_project_step {id : ProjectId} {p : Project} (hp : p.Checks)
    (hnone : s.project? id = none) :
    s.Step granted { s with projects := s.projects.put id ⟨p, hp⟩ } := by
  have hold : ∀ id' q, s.project? id' = some q →
      ({ s with projects := s.projects.put id ⟨p, hp⟩ } : KeyDb η).project? id' = some q := by
    intro id' q hq
    have hne : id' ≠ id := by
      intro heq
      subst heq
      cases hnone.symm.trans hq
    exact (Table.row?_put_of_ne s.projects p hp hne).trans hq
  refine ⟨⟨hold, fun _ r hr => ⟨r, hr, .refl r⟩⟩, fun hs => ⟨hs.unique, ?_⟩, fun hg => hg⟩
  intro id' r hr
  obtain ⟨q, hq⟩ := Option.isSome_iff_exists.mp (hs.owned id' r hr)
  exact Option.isSome_iff_exists.mpr ⟨q, hold _ q hq⟩

/-- A key is new: of a project, with a hash nobody has. -/
theorem put_new_key_step {id : ApiKeyId} {row : ApiKeyRow η} (hrow : row.Checks)
    (hnone : s.key? id = none) (hhash : ∀ id' r, s.key? id' = some r → r.keyHash ≠ row.keyHash)
    (hproject : (s.project? row.projectId).isSome = true)
    (hscopes : ∀ scope ∈ row.scopes, scope ∈ granted) :
    s.Step granted { s with apiKeys := s.apiKeys.put id ⟨row, hrow⟩ } := by
  have hkey : ∀ id', ({ s with apiKeys := s.apiKeys.put id ⟨row, hrow⟩ } : KeyDb η).key? id' =
      if id' = id then some row else s.key? id' := Table.row?_put s.apiKeys id row hrow
  refine ⟨⟨fun _ _ hp => hp, fun id' r hr => ?_⟩, fun hs => ⟨?_, ?_⟩, fun hg => ?_⟩
  · have hne : id' ≠ id := by
      intro heq
      subst heq
      cases hnone.symm.trans hr
    rw [hkey, if_neg hne]
    exact ⟨r, hr, .refl r⟩
  · intro id₁ id₂ r₁ r₂ h₁ h₂ heq
    rw [hkey] at h₁ h₂
    split at h₁
    · next hid₁ =>
        cases h₁
        split at h₂
        · next hid₂ => rw [hid₁, hid₂]
        · exact absurd heq.symm (hhash id₂ r₂ h₂)
    · split at h₂
      · cases h₂
        exact absurd heq (hhash id₁ r₁ h₁)
      · exact hs.unique id₁ id₂ r₁ r₂ h₁ h₂ heq
  · intro id' r hr
    rw [hkey] at hr
    split at hr
    · cases hr
      exact hproject
    · exact hs.owned id' r hr
  · intro id' r hr scope hscope
    rw [hkey] at hr
    split at hr
    · cases hr
      exact hscopes scope hscope
    · exact hg id' r hr scope hscope

theorem updateApiKey_step {id : ApiKeyId} {guard : ApiKeyRow η → Bool}
    {set : ApiKeyRow η → ApiKeyRow η} {out : Option ApiKeyRecord}
    (hset : ∀ r, guard r = true → r.Keeps (set r))
    (h : (updateApiKey id guard set).Commits s out s') :
    s.Step granted s' ∧ ∀ record, out = some record → ∃ r, s.key? id = some r ∧ guard r = true ∧
      s'.key? id = some (set r) ∧ record = (set r).intoRecord id := by
  unfold Tx.Commits updateApiKey at h
  split at h
  · cases h
    exact ⟨.refl s, fun _ h => (by cases h)⟩
  · next r hr =>
      split at h
      · next hguard =>
          split at h
          · next hchecks =>
              cases h
              refine ⟨put_key_step hchecks hr (hset r hguard), fun record hrecord => ?_⟩
              cases hrecord
              exact ⟨r, hr, hguard, Table.row?_put_self _ _ _ _, rfl⟩
          · cases h
      · cases h
        exact ⟨.refl s, fun _ h => (by cases h)⟩

/-- What an update of a stamp does, and what it answers. -/
theorem updateApiKeyTimestamp_step {id : ApiKeyId} {guard : ApiKeyRow η → Bool}
    {set : ApiKeyRow η → ApiKeyRow η} {record : ApiKeyRecord}
    (hset : ∀ r, guard r = true → r.Keeps (set r))
    (h : (updateApiKeyTimestamp id guard set).Commits s record s') :
    s.Step granted s' ∧ ∃ r, s.key? id = some r ∧ guard r = true ∧
      s'.key? id = some (set r) ∧ record = (set r).intoRecord id := by
  obtain ⟨out, s₁, hupdate, hout⟩ := Tx.bind_commits.mp h
  obtain ⟨hrecord, rfl⟩ := Tx.okOr_commits.mp hout
  obtain ⟨hstep, hrow⟩ := updateApiKey_step hset hupdate
  exact ⟨hstep, hrow record hrecord⟩

variable (granted) in
theorem touchApiKeyLastUsed_step {id : ApiKeyId} {now : Time} {record : ApiKeyRecord}
    (h : (touchApiKeyLastUsed id now : KeyTx η ApiKeyRecord).Commits s record s') :
    s.Step granted s' ∧ ∃ r, s.key? id = some r ∧ r.revokedAt = none ∧
      s'.key? id = some { r with lastUsedAt := some now } ∧
      record = ({ r with lastUsedAt := some now } : ApiKeyRow η).intoRecord id := by
  have hset : ∀ r : ApiKeyRow η, r.revokedAt.isNone = true →
      r.Keeps { r with lastUsedAt := some now } := by
    intro r hlive
    refine ⟨rfl, rfl, rfl, rfl, fun _ => rfl, fun hrevoked => ?_⟩
    rw [Option.isNone_iff_eq_none.mp hlive] at hrevoked
    cases hrevoked
  obtain ⟨hstep, r, hr, hlive, hrow, hrecord⟩ := updateApiKeyTimestamp_step hset h
  exact ⟨hstep, r, hr, Option.isNone_iff_eq_none.mp hlive, hrow, hrecord⟩

/-- A key that cannot be touched is revoked. -/
theorem touchApiKeyLastUsed_notFound {id : ApiKeyId} {now : Time} {entity key : String}
    (h : (touchApiKeyLastUsed id now : KeyTx η ApiKeyRecord) s = .error (.notFound entity key)) :
    ∀ r, s.key? id = some r → r.revokedAt.isSome = true := by
  intro r hr
  by_contra hlive
  have hguard : r.revokedAt.isNone = true := by simpa using hlive
  unfold touchApiKeyLastUsed updateApiKeyTimestamp at h
  cases hupdate : updateApiKey id (fun row : ApiKeyRow η => row.revokedAt.isNone)
      (fun row => { row with lastUsedAt := some now }) s with
  | error e =>
      rw [Tx.bind_of_error hupdate] at h
      cases h
      unfold updateApiKey at hupdate
      simp only [hr, hguard, if_true] at hupdate
      split at hupdate <;> cases hupdate
  | ok out =>
      have hcommits : (updateApiKey id (fun row : ApiKeyRow η => row.revokedAt.isNone)
          fun row => { row with lastUsedAt := some now }).Commits s out.1 out.2 := hupdate
      rw [Tx.bind_of_commits hcommits] at h
      unfold updateApiKey at hupdate
      simp only [hr, hguard, if_true] at hupdate
      split at hupdate
      · cases hupdate
        cases h
      · cases hupdate

/-- Revoking keeps the stamp of a key that is revoked. -/
theorem revokeApiKey_step {id : ApiKeyId} {now : Time} {record : ApiKeyRecord}
    (h : (revokeApiKey id now : KeyTx η ApiKeyRecord).Commits s record s') :
    s.Step granted s' ∧ ∃ r, s'.key? id = some r ∧ r.revokedAt.isSome = true := by
  have hset : ∀ r : ApiKeyRow η, (fun _ => true) r = true →
      r.Keeps { r with revokedAt := r.revokedAt <|> some now } := by
    intro r _
    refine ⟨rfl, rfl, rfl, rfl, fun h => h, fun hrevoked => ?_⟩
    obtain ⟨at_, hat⟩ := Option.isSome_iff_exists.mp hrevoked
    cases r
    cases hat
    rfl
  obtain ⟨hstep, r, _, _, hrow, _⟩ := updateApiKeyTimestamp_step hset h
  refine ⟨hstep, _, hrow, ?_⟩
  cases r.revokedAt <;> rfl

theorem validateScopes_ok {scopes scopes' : List AuthScope}
    (h : validateScopes scopes = .ok scopes') : scopes' = scopes ∧ scopes ≠ [] ∧ scopes.Nodup := by
  unfold validateScopes at h
  split at h
  · cases h
  · next hne =>
      split at h
      · cases h
      · next hnodup =>
          cases h
          refine ⟨rfl, fun hnil => ?_, Decidable.not_not.mp hnodup⟩
          rw [hnil] at hne
          exact hne rfl

variable (granted) in
theorem insertProject_step {id : ProjectId} {name owner : String} {now : Time} {p : Project}
    (h : (insertProject id name owner now : KeyTx η Project).Commits s p s') :
    s.Step granted s' ∧ p = ⟨id, name, owner, 2, 100, now⟩ ∧ s'.project? id = some p := by
  unfold Tx.Commits insertProject at h
  simp only at h
  split at h
  · next hchecks =>
      split at h
      · cases h
      · next hnone =>
          cases h
          exact ⟨put_project_step hchecks hnone, rfl, Table.row?_put_self _ _ _ hchecks⟩
  · cases h

theorem insertApiKey_step [DecidableEq η] {id : ApiKeyId} {projectId : ProjectId} {hash : η}
    {scopes : List AuthScope} {now : Time} {record : ApiKeyRecord}
    (hscopes : ∀ scope ∈ scopes, scope ∈ granted)
    (h : (insertApiKey id projectId hash scopes now).Commits s record s') :
    s.Step granted s' ∧ s'.key? id = some ⟨projectId, hash, scopes, now, none, none⟩ ∧
      record = ⟨id, projectId, scopes, now, none, none⟩ ∧ s'.projects = s.projects := by
  unfold Tx.Commits insertApiKey at h
  simp only at h
  split at h
  · next hchecks =>
      split at h
      · cases h
      · next hfresh =>
          split at h
          · cases h
          · next hunique =>
              split at h
              · cases h
              · next hproject =>
                  cases h
                  refine ⟨put_new_key_step hchecks ?_ ?_ ?_ hscopes,
                    Table.row?_put_self _ _ _ hchecks, rfl, rfl⟩
                  · exact Option.not_isSome_iff_eq_none.mp hfresh
                  · intro id' r hr heq
                    refine hunique (List.any_eq_true.mpr ?_)
                    obtain ⟨x, hx, rfl⟩ := Option.map_eq_some_iff.mp hr
                    exact ⟨(id', x), (Table.mem_rows_iff _ _ _).mpr hx, decide_eq_true heq⟩
                  · exact Option.isSome_iff_ne_none.mpr fun hnone =>
                      hproject (Option.isNone_iff_eq_none.mpr hnone)
  · cases h

/-- A project and its first key are there together, and the text answered is the key's. -/
theorem createProjectWithApiKey_step [DecidableEq η] {digest : String → η} {draw : KeyDraw}
    {name owner : String} {scopes : List AuthScope} {now : Time} {created : CreatedProject}
    (hscopes : ∀ scope ∈ scopes, scope ∈ granted)
    (h : (createProjectWithApiKey digest draw name owner scopes now).Commits s created s') :
    s.Step granted s' ∧
      created.project = ⟨draw.projectId, name, owner, 2, 100, now⟩ ∧
      created.apiKey.key = generateApiKey draw.random ∧
      s'.project? draw.projectId = some created.project ∧
      s'.key? draw.keyId = some ⟨draw.projectId, digest created.apiKey.key, scopes, now, none,
        none⟩ := by
  obtain ⟨_, _, hnames, h₁⟩ := Tx.bind_commits.mp h
  obtain ⟨_, rfl⟩ := Tx.ofExcept_commits.mp hnames
  obtain ⟨scopes', _, hvalid, h₂⟩ := Tx.bind_commits.mp h₁
  obtain ⟨hsame, rfl⟩ := Tx.ofExcept_commits.mp hvalid
  obtain ⟨rfl, _⟩ := validateScopes_ok hsame
  obtain ⟨project, _, hproject, h₃⟩ := Tx.bind_commits.mp h₂
  obtain ⟨hstep, rfl, hrow⟩ := insertProject_step granted (classifyWrite_commits.mp hproject)
  obtain ⟨record, _, hkey, h₄⟩ := Tx.bind_commits.mp h₃
  obtain ⟨hstep', hrow', _, hprojects⟩ := insertApiKey_step hscopes (classifyWrite_commits.mp hkey)
  obtain ⟨rfl, rfl⟩ := Tx.pure_commits.mp h₄
  refine ⟨hstep.trans hstep', rfl, rfl, ?_, hrow'⟩
  unfold KeyDb.project? at hrow ⊢
  rw [hprojects]
  exact hrow

theorem createProject_step {id : ProjectId} {name owner : String} {now : Time} {p : Project}
    (h : (createProject id name owner now : KeyTx η Project).Commits s p s') :
    s.Step granted s' := by
  obtain ⟨_, _, hnames, hproject⟩ := Tx.bind_commits.mp h
  obtain ⟨_, rfl⟩ := Tx.ofExcept_commits.mp hnames
  exact (insertProject_step granted (classifyWrite_commits.mp hproject)).1

theorem createApiKey_step [DecidableEq η] {digest : String → η} {draw : KeyDraw}
    {scopes : List AuthScope} {now : Time} {created : CreatedApiKey}
    (hscopes : ∀ scope ∈ scopes, scope ∈ granted)
    (h : (createApiKey digest draw scopes now).Commits s created s') : s.Step granted s' := by
  obtain ⟨scopes', _, hvalid, h₁⟩ := Tx.bind_commits.mp h
  obtain ⟨hsame, rfl⟩ := Tx.ofExcept_commits.mp hvalid
  obtain ⟨rfl, _⟩ := validateScopes_ok hsame
  obtain ⟨record, _, hkey, h₂⟩ := Tx.bind_commits.mp h₁
  obtain ⟨_, rfl⟩ := Tx.pure_commits.mp h₂
  exact (insertApiKey_step hscopes (classifyWrite_commits.mp hkey)).1

/-- What a look-up finds. -/
theorem findApiKeyByHash_some [DecidableEq η] {hash : η} {record : ApiKeyRecord}
    (h : (findApiKeyByHash hash).Commits s (some record) s') :
    s' = s ∧ ∃ r, s.key? record.id = some r ∧ r.keyHash = hash ∧
      record = r.intoRecord record.id := by
  obtain ⟨hfound, rfl⟩ := Tx.read_commits.mp h
  obtain ⟨x, hfind, rfl⟩ := Option.map_eq_some_iff.mp hfound
  have hhash : decide (x.2.val.keyHash = hash) = true := by
    simpa using List.find?_some hfind
  exact ⟨rfl, x.2.val, Table.row?_of_mem (List.mem_of_find?_eq_some hfind),
    of_decide_eq_true hhash, rfl⟩

theorem findApiKeyByHash_none [DecidableEq η] {hash : η}
    (h : (findApiKeyByHash hash).Commits s none s') :
    s' = s ∧ ∀ id r, s.key? id = some r → r.keyHash ≠ hash := by
  obtain ⟨hfound, rfl⟩ := Tx.read_commits.mp h
  refine ⟨rfl, fun id r hr heq => ?_⟩
  have hnone := List.find?_eq_none.mp (Option.map_eq_none_iff.mp hfound)
  obtain ⟨x, hx, rfl⟩ := Option.map_eq_some_iff.mp hr
  exact hnone (id, x) ((Table.mem_rows_iff _ _ _).mpr hx) (decide_eq_true heq)

end Steps

end RunAnywhere
