import AgenticSDLC.Foundations.Outcome
import AgenticSDLC.Plane.PlaneMcp

/-!
# The two evidence posters

`post_evidence` of the client escapes the values of the record, `t_post_evidence` of the
server does not.  Both send the same comment exactly when there is nothing to escape.
-/

namespace AgenticSDLC.EvidenceComments

open PlaneClient (evidenceBody)
open PlaneMcp

/-- The values of an evidence record and the role of its actor. -/
structure Evidence where
  actorRole : String
  testFile : String
  testName : String
  outputHash : String
  collectedAt : String

def Evidence.values (evidence : Evidence) : List String :=
  [evidence.actorRole, evidence.testFile, evidence.testName, evidence.outputHash,
    evidence.collectedAt]

/-- What stands around the values. -/
def recordFrame : List String :=
  ["<p><b>Evidence_Record</b> (actor: ", ")</p><ul>" ++ "<li><code>test_file</code>: ",
    "</li><li><code>test_name</code>: ", "</li>" ++ "<li><code>output_hash</code>: ",
    "</li><li><code>collected_at</code>: ", "</li></ul>"]

/-- The request of `post_evidence`. -/
def postEvidence (repr : Json → String) (issueId testFile testName outputHash collectedAt
    actorRole : Json) : Request :=
  let text := Python.str repr
  .commentItem (text issueId) (.str (evidenceBody (text testFile) (text testName)
    (text outputHash) (text collectedAt) (text actorRole)))

/-- The arguments of a tool call carry this record for an issue. -/
def Carries (a issueId : Json) (evidence : Evidence) : Prop :=
  ∃ fields, a = .obj fields ∧ fields.lookup "issue_id" = some issueId ∧
    Python.getD fields "actor_role" (.str "verifier") = .str evidence.actorRole ∧
    fields.lookup "test_file" = some (.str evidence.testFile) ∧
    fields.lookup "test_name" = some (.str evidence.testName) ∧
    fields.lookup "output_hash" = some (.str evidence.outputHash) ∧
    fields.lookup "collected_at" = some (.str evidence.collectedAt)

/-- Both posters send one comment: the frame with the values escaped, whose tags are those of
the frame. -/
def SameSafeComment (repr : Json → String) (a issueId : Json) (evidence : Evidence) : Prop :=
  ∃ body, postEvidence repr issueId (.str evidence.testFile) (.str evidence.testName)
      (.str evidence.outputHash) (.str evidence.collectedAt) (.str evidence.actorRole) =
        .commentItem (Python.str repr issueId) (.str body) ∧
    tPostEvidence repr a = .ok (.commentItem (Python.str repr issueId) (.str body)) ∧
    body = Html.fill recordFrame (evidence.values.map Html.escape) ∧
    Html.tags body = recordFrame.flatMap Html.tags

theorem fill_append (p p₁ q₁ p₂ p₃ q₃ p₄ p₅ a b c d e : String) :
    p ++ a ++ p₁ ++ q₁ ++ b ++ p₂ ++ c ++ p₃ ++ q₃ ++ d ++ p₄ ++ e ++ p₅ =
      Html.fill [p, p₁ ++ q₁, p₂, p₃ ++ q₃, p₄, p₅] [a, b, c, d, e] := by
  simp [Html.fill, String.append_assoc]

/-- The comments of both posters are the frame, filled. -/
theorem evidenceComment_eq (evidence : Evidence) :
    evidenceComment evidence.actorRole evidence.testFile evidence.testName evidence.outputHash
      evidence.collectedAt = Html.fill recordFrame evidence.values :=
  fill_append ..

theorem evidenceBody_eq (evidence : Evidence) :
    evidenceBody evidence.testFile evidence.testName evidence.outputHash evidence.collectedAt
      evidence.actorRole = Html.fill recordFrame (evidence.values.map Html.escape) :=
  fill_append ..

theorem tPostEvidence_of_carries (repr : Json → String) {a issueId : Json} {evidence : Evidence}
    (h : Carries a issueId evidence) :
    tPostEvidence repr a = .ok (.commentItem (Python.str repr issueId)
      (.str (Html.fill recordFrame evidence.values))) := by
  obtain ⟨fields, rfl, hissue, hrole, hfile, hname, hhash, hcollected⟩ := h
  rw [← evidenceComment_eq]
  simp [tPostEvidence, Python.asDict, Python.subscript, hissue, hrole, hfile, hname, hhash,
    hcollected, Python.str, Outcome.pure_eq]

theorem tags_escaped (values : List String) :
    Html.tags (Html.fill recordFrame (values.map Html.escape)) = recordFrame.flatMap Html.tags := by
  apply Html.tags_fill
  · decide +kernel
  · intro value hvalue
    obtain ⟨text, -, rfl⟩ := List.mem_map.mp hvalue
    exact ⟨Html.closed_escape text, Html.tags_escape text⟩

theorem fill_escape_iff (evidence : Evidence) :
    Html.fill recordFrame (evidence.values.map Html.escape) = Html.fill recordFrame evidence.values ↔
      ∀ value ∈ evidence.values, ∀ c ∈ value.toList, Html.isSpecial c = false := by
  apply Html.fill_escape_iff
  simp [Evidence.values, recordFrame]

theorem fill_escape_of_same {repr : Json → String} {a issueId : Json} {evidence : Evidence}
    (h : Carries a issueId evidence) (hsame : SameSafeComment repr a issueId evidence) :
    Html.fill recordFrame (evidence.values.map Html.escape) =
      Html.fill recordFrame evidence.values := by
  obtain ⟨body, -, hserver, rfl, -⟩ := hsame
  rw [tPostEvidence_of_carries repr h] at hserver
  injection hserver with hrequest
  injection hrequest with _ hbody
  injection hbody with hbody
  exact hbody.symm

/-- The posters send the same safe comment if and only if there is nothing to escape in it. -/
theorem same_safe_comment_iff (repr : Json → String) {a issueId : Json} {evidence : Evidence}
    (h : Carries a issueId evidence) :
    SameSafeComment repr a issueId evidence ↔
      ∀ value ∈ evidence.values, ∀ c ∈ value.toList, Html.isSpecial c = false := by
  rw [← fill_escape_iff]
  constructor
  · exact fill_escape_of_same h
  · intro hsame
    refine ⟨Html.fill recordFrame (evidence.values.map Html.escape), ?_, ?_, rfl, ?_⟩
    · rw [← evidenceBody_eq]
      rfl
    · rw [tPostEvidence_of_carries repr h, hsame]
    · exact tags_escaped evidence.values

def sampleEvidence (testFile : String) : Evidence :=
  ⟨"verifier", testFile, "test_login", "sha256:00", "2026-06-16T00:00:00Z"⟩

def sampleArguments (testFile : String) : Json :=
  .obj [("issue_id", .str "W-1"), ("test_file", .str testFile), ("test_name", .str "test_login"),
    ("output_hash", .str "sha256:00"), ("collected_at", .str "2026-06-16T00:00:00Z")]

theorem carries_sample (testFile : String) :
    Carries (sampleArguments testFile) (.str "W-1") (sampleEvidence testFile) :=
  ⟨_, rfl, rfl, rfl, rfl, rfl, rfl, rfl⟩

theorem same_safe_comment_sample :
    SameSafeComment (fun _ ↦ "") (sampleArguments "tests/test_login.py") (.str "W-1")
        (sampleEvidence "tests/test_login.py") ↔
      ∀ value ∈ (sampleEvidence "tests/test_login.py").values, ∀ c ∈ value.toList,
        Html.isSpecial c = false :=
  same_safe_comment_iff _ (carries_sample _)

/-- The server hands on the markup of a value. -/
theorem markup_is_handed_on :
    Carries (sampleArguments "<b>x</b>") (.str "W-1") (sampleEvidence "<b>x</b>") ∧
    ¬SameSafeComment (fun _ ↦ "") (sampleArguments "<b>x</b>") (.str "W-1")
      (sampleEvidence "<b>x</b>") := by
  refine ⟨carries_sample _, fun hsame ↦ ?_⟩
  have hplain := (fill_escape_iff _).mp (fill_escape_of_same (carries_sample _) hsame)
  exact absurd (hplain "<b>x</b>" (by decide) '<' (by decide)) (by decide)

end AgenticSDLC.EvidenceComments
