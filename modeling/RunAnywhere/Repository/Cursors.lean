import RunAnywhere.Repository.Error
import RunAnywhere.Contracts.Api
import RunAnywhere.Logic.Json
import RunAnywhere.Logic.Table

/-!
# Route cursors

`encode_route_cursor` and `decode_route_cursor` (`repository/src/models.rs`): a cursor is the
key of a row and the route it belongs to, as JSON in URL-safe base64. The JSON, base64 and
RFC 3339 texts are those of the crates `serde_json`, `base64` and `chrono`, a parameter here
(`CursorCodec`); the fields of a key are read as `derive(Deserialize)` reads them (`Serde`).

**Round trip.** Over a codec that reads back what it writes, a cursor decodes to the key it was
encoded from (`decode_encodeRouteCursor`), and under another route not at all
(`decode_other_route`).
-/

namespace RunAnywhere

open Logic

/-- A JSON value, as far as keys go: a member or an element that is no text is `none`. -/
inductive Value
  | object (members : List (String × Option String))
  | array (elements : List (Option String))
  | other
  deriving DecidableEq

/-- An object whose members are texts. -/
def Value.ofTexts (members : List (String × String)) : Value :=
  .object (members.map fun m => (m.1, some m.2))

/-- `RouteCursor<Value>`. -/
structure RouteCursor where
  route : String
  key : Value
  deriving DecidableEq

/-- The crates' part of a cursor; the errors are their texts. -/
structure CursorCodec where
  toVec : RouteCursor → Except String (List UInt8)
  fromSlice : List UInt8 → Except String RouteCursor
  encode64 : List UInt8 → String
  decode64 : String → Except String (List UInt8)
  formatTime : Time → String
  parseTime : String → Option Time
  /-- Why a value is not a key of the route. -/
  mismatch : String → Value → String

/-- What is written can be read. An object comes back with its members in any order. -/
structure CursorCodec.Lawful (codec : CursorCodec) : Prop where
  json : ∀ route members, (members.map Prod.fst).Nodup → ∃ bytes members',
    codec.toVec ⟨route, .ofTexts members⟩ = .ok bytes ∧
    codec.fromSlice bytes = .ok ⟨route, .object members'⟩ ∧
    ∀ name, members'.lookup name = (members.lookup name).map some
  base64 : ∀ bytes, codec.decode64 (codec.encode64 bytes) = .ok bytes
  time : ∀ t, codec.parseTime (codec.formatTime t) = some t

/-- Every character of the text is written as it is, in one byte. -/
def PlainText (s : String) : Prop := ∀ c ∈ s.toList, Json.Plain c

instance (s : String) : Decidable (PlainText s) :=
  decidable_of_iff ((s.toList.all fun c => decide (Json.Plain c)) = true) (by
    simp only [List.all_eq_true, decide_eq_true_eq, PlainText])

/-- The bytes of `{"route":…,"key":{…}}` over plain texts. -/
def jsonBytes (route : String) (members : List (String × String)) : Nat :=
  20 + route.utf8ByteSize +
    (members.map fun m => m.1.utf8ByteSize + m.2.utf8ByteSize + 6).sum

/-- The texts are as short as the crates write them: JSON without white space, base64 without
padding, instants without characters that JSON escapes. -/
structure CursorCodec.Compact (codec : CursorCodec) : Prop where
  json : ∀ route members bytes, members ≠ [] → PlainText route →
    (∀ m ∈ members, PlainText m.1 ∧ PlainText m.2) →
    codec.toVec ⟨route, .ofTexts members⟩ = .ok bytes → bytes.length = jsonBytes route members
  base64 : ∀ bytes, (codec.encode64 bytes).utf8ByteSize = (4 * bytes.length + 2) / 3
  time : ∀ t, PlainText (codec.formatTime t)

/-- `derive(Serialize, Deserialize)` of a key: its fields in order, and the texts of each. -/
structure Serde (α : Type) where
  names : List String
  texts : α → List String
  ofTexts : List String → Option α

/-- The texts of the named fields; an array has them in order. -/
def Value.fields (names : List String) : Value → Option (List String)
  | .object members => names.mapM fun name => (members.lookup name).join
  | .array elements => if elements.length = names.length then elements.mapM id else none
  | .other => none

/-- `serde_json::to_value`. -/
def Serde.toValue {α : Type} (serde : Serde α) (key : α) : Value :=
  .ofTexts (serde.names.zip (serde.texts key))

/-- `serde_json::from_value`. -/
def Serde.fromValue {α : Type} (serde : Serde α) (value : Value) : Option α :=
  (value.fields serde.names).bind serde.ofTexts

/-- `encode_route_cursor`. -/
def encodeRouteCursor {α : Type} (codec : CursorCodec) (serde : Serde α) (route : String)
    (key : α) : Except RepositoryError String :=
  match codec.toVec ⟨route, serde.toValue key⟩ with
  | .ok bytes => .ok (codec.encode64 bytes)
  | .error e => .error (.decode "cursor" e)

/-- `decode_route_cursor`. -/
def decodeRouteCursor {α : Type} (codec : CursorCodec) (serde : Serde α) (expectedRoute : String)
    (value : String) : Except RepositoryError α :=
  match codec.decode64 value with
  | .error e => .error (.validation ("invalid " ++ expectedRoute ++ " cursor: " ++ e))
  | .ok bytes =>
      match codec.fromSlice bytes with
      | .error e => .error (.validation ("invalid " ++ expectedRoute ++ " cursor: " ++ e))
      | .ok cursor =>
          if cursor.route ≠ expectedRoute then
            .error (.validation ("cursor is for route `" ++ cursor.route ++ "`, not `" ++
              expectedRoute ++ "`"))
          else
            match serde.fromValue cursor.key with
            | some key => .ok key
            | none => .error (.validation ("invalid " ++ expectedRoute ++ " cursor: " ++
                codec.mismatch expectedRoute cursor.key))

/-! ## The keys of the listings -/

structure JobCursor where
  createdAt : Time
  jobId : JobId
  deriving DecidableEq

structure ArtifactCursor where
  jobId : String
  createdAt : Time
  artifactId : String
  deriving DecidableEq

structure WorkerCursor where
  registeredAt : Time
  workerId : String
  deriving DecidableEq

structure RuntimeProfileCursor where
  profileId : String
  deriving DecidableEq

/-- A job identifier is validated as it is read. -/
def JobCursor.serde (codec : CursorCodec) : Serde JobCursor where
  names := ["created_at", "job_id"]
  texts c := [codec.formatTime c.createdAt, c.jobId.val]
  ofTexts
    | [createdAt, jobId] =>
        match codec.parseTime createdAt, Ident.new "job_" jobId with
        | some t, .ok id => some ⟨t, id⟩
        | _, _ => none
    | _ => none

def ArtifactCursor.serde (codec : CursorCodec) : Serde ArtifactCursor where
  names := ["job_id", "created_at", "artifact_id"]
  texts c := [c.jobId, codec.formatTime c.createdAt, c.artifactId]
  ofTexts
    | [jobId, createdAt, artifactId] =>
        (codec.parseTime createdAt).map fun t => ⟨jobId, t, artifactId⟩
    | _ => none

def WorkerCursor.serde (codec : CursorCodec) : Serde WorkerCursor where
  names := ["registered_at", "worker_id"]
  texts c := [codec.formatTime c.registeredAt, c.workerId]
  ofTexts
    | [registeredAt, workerId] => (codec.parseTime registeredAt).map fun t => ⟨t, workerId⟩
    | _ => none

def RuntimeProfileCursor.serde : Serde RuntimeProfileCursor where
  names := ["profile_id"]
  texts c := [c.profileId]
  ofTexts
    | [profileId] => some ⟨profileId⟩
    | _ => none

def JobCursor.encode (codec : CursorCodec) : JobCursor → Except RepositoryError String :=
  encodeRouteCursor codec (JobCursor.serde codec) "jobs"

def JobCursor.decode (codec : CursorCodec) : String → Except RepositoryError JobCursor :=
  decodeRouteCursor codec (JobCursor.serde codec) "jobs"

/-! ## Round trips -/

/-- The fields of a key are named apart, and its texts are read back. -/
structure Serde.Lawful {α : Type} (serde : Serde α) : Prop where
  names : serde.names.Nodup
  texts : ∀ key, (serde.texts key).length = serde.names.length
  ofTexts : ∀ key, serde.ofTexts (serde.texts key) = some key

theorem JobCursor.serde_lawful {codec : CursorCodec} (h : codec.Lawful) :
    (JobCursor.serde codec).Lawful where
  names := show ["created_at", "job_id"].Nodup by decide
  texts _ := rfl
  ofTexts c := by
    show (match codec.parseTime (codec.formatTime c.createdAt), Ident.new "job_" c.jobId.val with
      | some t, .ok id => some (⟨t, id⟩ : JobCursor)
      | _, _ => none) = some c
    rw [h.time, Ident.new_val]

theorem ArtifactCursor.serde_lawful {codec : CursorCodec} (h : codec.Lawful) :
    (ArtifactCursor.serde codec).Lawful where
  names := show ["job_id", "created_at", "artifact_id"].Nodup by decide
  texts _ := rfl
  ofTexts c := by
    show (codec.parseTime (codec.formatTime c.createdAt)).map _ = some c
    rw [h.time]
    rfl

theorem WorkerCursor.serde_lawful {codec : CursorCodec} (h : codec.Lawful) :
    (WorkerCursor.serde codec).Lawful where
  names := show ["registered_at", "worker_id"].Nodup by decide
  texts _ := rfl
  ofTexts c := by
    show (codec.parseTime (codec.formatTime c.registeredAt)).map _ = some c
    rw [h.time]
    rfl

theorem RuntimeProfileCursor.serde_lawful : RuntimeProfileCursor.serde.Lawful where
  names := by decide
  texts _ := rfl
  ofTexts _ := rfl

/-- Names that have their texts give the texts. -/
theorem mapM_texts {names texts : List String} {f : String → Option String}
    (hlen : texts.length = names.length) (hf : ∀ p ∈ names.zip texts, f p.1 = some p.2) :
    names.mapM f = some texts := by
  induction names generalizing texts with
  | nil =>
      obtain rfl := List.length_eq_zero_iff.mp hlen
      rfl
  | cons name names ih =>
      cases texts with
      | nil => cases hlen
      | cons text texts =>
          have hfirst : f name = some text := hf (name, text) List.mem_cons_self
          have hrest := ih (Nat.succ.inj hlen) fun p hp => hf p (List.mem_cons_of_mem _ hp)
          rw [List.mapM_cons, hfirst, hrest]
          rfl

theorem Serde.Lawful.members_nodup {α : Type} {serde : Serde α} (h : serde.Lawful) (key : α) :
    ((serde.names.zip (serde.texts key)).map Prod.fst).Nodup := by
  rw [List.map_fst_zip (Nat.le_of_eq (h.texts key).symm)]
  exact h.names

/-- A key is read from any value that has its members. -/
theorem Serde.Lawful.fromValue {α : Type} {serde : Serde α} (h : serde.Lawful) (key : α)
    {members : List (String × Option String)}
    (hmembers : ∀ name, members.lookup name =
      ((serde.names.zip (serde.texts key)).lookup name).map some) :
    serde.fromValue (.object members) = some key := by
  have hfields : (Value.object members).fields serde.names = some (serde.texts key) := by
    refine mapM_texts (h.texts key) fun p hp => ?_
    have hfound : (serde.names.zip (serde.texts key)).lookup p.1 = some p.2 :=
      (Table.mem_rows_iff ⟨_, h.members_nodup key⟩ p.1 p.2).mp hp
    rw [hmembers, hfound]
    rfl
  rw [Serde.fromValue, hfields]
  exact h.ofTexts key

section RoundTrip

variable {α β : Type} {codec : CursorCodec} {serde : Serde α} {route : String} {key : α}

/-- Encoding a key does not fail. -/
theorem encodeRouteCursor_ok (hcodec : codec.Lawful) (hserde : serde.Lawful) (route : String)
    (key : α) : ∃ text, encodeRouteCursor codec serde route key = .ok text := by
  obtain ⟨bytes, _, hbytes, _⟩ := hcodec.json route _ (hserde.members_nodup key)
  refine ⟨codec.encode64 bytes, ?_⟩
  unfold encodeRouteCursor Serde.toValue
  rw [hbytes]

/-- The text of a cursor whose encoding does not fail. -/
def cursorText (codec : CursorCodec) (serde : Serde α) (route : String) (key : α) : String :=
  match encodeRouteCursor codec serde route key with
  | .ok text => text
  | .error _ => ""

theorem encodeRouteCursor_eq (hcodec : codec.Lawful) (hserde : serde.Lawful) :
    encodeRouteCursor codec serde route key = .ok (cursorText codec serde route key) := by
  obtain ⟨text, htext⟩ := encodeRouteCursor_ok hcodec hserde route key
  unfold cursorText
  rw [htext]

/-- The length of a cursor. -/
theorem cursorText_bytes (hcodec : codec.Lawful) (hcompact : codec.Compact) (hserde : serde.Lawful)
    (hne : serde.names ≠ []) (hroute : PlainText route) (hnames : ∀ n ∈ serde.names, PlainText n)
    (htexts : ∀ t ∈ serde.texts key, PlainText t) :
    (cursorText codec serde route key).utf8ByteSize =
      (4 * jsonBytes route (serde.names.zip (serde.texts key)) + 2) / 3 := by
  obtain ⟨bytes, _, hbytes, _⟩ := hcodec.json route _ (hserde.members_nodup key)
  have hmembers : serde.names.zip (serde.texts key) ≠ [] := by
    intro hnil
    have hlen := congrArg List.length hnil
    rw [List.length_zip, hserde.texts key, Nat.min_self, List.length_nil] at hlen
    exact hne (List.length_eq_zero_iff.mp hlen)
  have hplain : ∀ m ∈ serde.names.zip (serde.texts key), PlainText m.1 ∧ PlainText m.2 := by
    intro m hm
    obtain ⟨hname, htext⟩ := List.of_mem_zip hm
    exact ⟨hnames _ hname, htexts _ htext⟩
  have htext : cursorText codec serde route key = codec.encode64 bytes := by
    unfold cursorText encodeRouteCursor Serde.toValue
    rw [hbytes]
  rw [htext, hcompact.base64, hcompact.json route _ bytes hmembers hroute hplain hbytes]

/-- What a cursor is read as, before its key. -/
theorem fromSlice_encodeRouteCursor (hcodec : codec.Lawful) (hserde : serde.Lawful)
    {text : String} (h : encodeRouteCursor codec serde route key = .ok text) :
    ∃ bytes members, codec.decode64 text = .ok bytes ∧
      codec.fromSlice bytes = .ok ⟨route, .object members⟩ ∧
      ∀ name, members.lookup name =
        ((serde.names.zip (serde.texts key)).lookup name).map some := by
  obtain ⟨bytes, members, hbytes, hread, hmembers⟩ :=
    hcodec.json route _ (hserde.members_nodup key)
  unfold encodeRouteCursor Serde.toValue at h
  rw [hbytes] at h
  cases h
  exact ⟨bytes, members, hcodec.base64 bytes, hread, hmembers⟩

/-- **Round trip.** A cursor decodes to the key it was encoded from. -/
theorem decode_encodeRouteCursor (hcodec : codec.Lawful) (hserde : serde.Lawful) {text : String}
    (h : encodeRouteCursor codec serde route key = .ok text) :
    decodeRouteCursor codec serde route text = .ok key := by
  obtain ⟨bytes, members, hbytes, hread, hmembers⟩ :=
    fromSlice_encodeRouteCursor hcodec hserde h
  unfold decodeRouteCursor
  rw [hbytes]
  simp only [hread, hserde.fromValue key hmembers]
  rw [if_neg (fun hne => hne rfl)]

/-- **Routes.** A cursor of another route is rejected. -/
theorem decode_other_route (hcodec : codec.Lawful) (hserde : serde.Lawful) {other : Serde β}
    {expected text : String} (h : encodeRouteCursor codec serde route key = .ok text)
    (hne : route ≠ expected) : decodeRouteCursor codec other expected text =
      .error (.validation ("cursor is for route `" ++ route ++ "`, not `" ++ expected ++ "`")) := by
  obtain ⟨bytes, members, hbytes, hread, _⟩ := fromSlice_encodeRouteCursor hcodec hserde h
  unfold decodeRouteCursor
  rw [hbytes]
  simp only [hread]
  rw [if_pos hne]

end RoundTrip

end RunAnywhere
