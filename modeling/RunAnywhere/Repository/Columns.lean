import RunAnywhere.Contracts.Wire
import RunAnywhere.Repository.Rows

/-!
# JSON columns

`jobs_automation_valid` and `jobs_requested_artifacts_valid` are expressions over the JSON that
is stored. Of what `encode_json` writes, the first says what `JobRow.automationValid` says of the
typed value (`automationValid_iff`), and the second always holds (`requestedArtifacts_valid`).
-/

namespace RunAnywhere

open Logic

namespace Jsonb

/-- `jsonb_typeof`. -/
def typeof : Json.Value → String
  | .null => "null"
  | .bool _ => "boolean"
  | .int _ | .float _ => "number"
  | .string _ => "string"
  | .array _ => "array"
  | .object _ => "object"

/-- `value -> name`; `value ? name` is that there is one. -/
def get? (value : Json.Value) (name : String) : Option Json.Value :=
  match value with
  | .object members => Json.member members name
  | _ => none

/-- `value ->> name`, of a member that is a string. -/
def text? (value : Json.Value) (name : String) : Option String := (get? value name).bind (·.text?)

/-- There is a member of this name and type. -/
def hasTyped (value : Json.Value) (name type : String) : Bool :=
  (get? value name).any fun x => typeof x = type

end Jsonb

/-- `jobs_automation_valid`. -/
def jobsAutomationValid (automation : Json.Value) : Bool :=
  Jsonb.typeof automation = "object" && Jsonb.hasTyped automation "type" "string" &&
    (Jsonb.text? automation "type").any (fun s => s = "built_in_smoke" || s = "appium") &&
    ((Jsonb.text? automation "type").any (· = "built_in_smoke") ||
      (Jsonb.hasTyped automation "script_ref" "string" &&
        (Jsonb.text? automation "script_ref").any fun s =>
          !btrimEmpty s && !s.toList.any isControl))

/-- `jobs_requested_artifacts_valid`. -/
def jobsRequestedArtifactsValid (artifacts : Json.Value) : Bool :=
  Jsonb.typeof artifacts = "object" &&
    ["screenshots", "video", "logcat", "junit"].all fun name =>
      Jsonb.hasTyped artifacts name "boolean"

/-- The expression agrees with the typed check. -/
theorem automationValid_iff (row : JobRow) :
    jobsAutomationValid row.automation.toJson = true ↔ row.automationValid := by
  unfold JobRow.automationValid
  cases row.automation with
  | builtInSmoke => exact ⟨fun _ => trivial, fun _ => by decide⟩
  | appium scriptRef =>
      have hsql : jobsAutomationValid (AutomationSpec.appium scriptRef).toJson =
          (!btrimEmpty scriptRef.val && !scriptRef.val.toList.any isControl) := rfl
      rw [hsql]
      simp only [Bool.and_eq_true, Bool.not_eq_true']

/-- Every selection is stored as four booleans. -/
theorem requestedArtifacts_valid (selection : ArtifactSelection) :
    jobsRequestedArtifactsValid selection.toJson = true := rfl

end RunAnywhere
