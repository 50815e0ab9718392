import AgenticSDLC.Bridge.Dispatcher
import AgenticSDLC.Foundations.Separated

/-!
# Which job a key stands for

`job_key` hashes four texts joined with a bar.  A job shares its key with another one
exactly when one of its own texts has a bar in it.
-/

namespace AgenticSDLC.JobKeys

open Python (Stdlib)
open Dispatcher (Job jobKey)
open Separated

def keyFields : List String := ["delivery", "issue_id", "state", "kind"]

/-- The four fields of the job are these texts; one that is missing reads as empty. -/
def HasTexts (job : Job) (texts : List String) : Prop :=
  (keyFields.map fun k ↦ Python.getD job k (.str "")) = texts.map Json.str

theorem HasTexts.length_eq {job : Job} {texts : List String} (h : HasTexts job texts) :
    texts.length = 4 := by
  simpa [keyFields, eq_comm] using congrArg List.length h

def jobOf (texts : List String) : Job := keyFields.zip (texts.map Json.str)

theorem hasTexts_jobOf {texts : List String} (h : texts.length = 4) :
    HasTexts (jobOf texts) texts := by
  match texts, h with
  | [delivery, issueId, state, kind], _ => rfl

/-- The text that is hashed. -/
def basis (texts : List String) : String := "|".intercalate texts

theorem toList_basis (texts : List String) :
    (basis texts).toList = join '|' (texts.map String.toList) :=
  String.toList_intercalate

theorem eq_of_basis_eq {texts others : List String} (hbar : ∀ text ∈ texts, '|' ∉ text.toList)
    (hlength : others.length = texts.length) (h : basis others = basis texts) : others = texts := by
  have hpieces : ∀ piece ∈ texts.map String.toList, '|' ∉ piece := by
    intro piece hpiece
    obtain ⟨text, htext, rfl⟩ := List.mem_map.mp hpiece
    exact hbar text htext
  have hlists : others.map String.toList = texts.map String.toList := by
    apply eq_of_join_eq hpieces (by simpa using hlength)
    rw [← toList_basis, ← toList_basis, h]
  exact List.map_injective_iff.mpr (fun a b ↦ String.toList_inj.mp) hlists

theorem exists_basis_eq {texts : List String} {text : String} (hlength : 2 ≤ texts.length)
    (htext : text ∈ texts) (hbar : '|' ∈ text.toList) :
    ∃ others, others.length = texts.length ∧ basis others = basis texts ∧ others ≠ texts := by
  have hpiece : text.toList ∈ texts.map String.toList := List.mem_map_of_mem htext
  obtain ⟨others, hothers, hjoin, hne⟩ := exists_join_eq (by simpa using hlength) hpiece hbar
  have hback : (others.map String.ofList).map String.toList = others := by simp
  refine ⟨others.map String.ofList, by simpa using hothers, ?_, ?_⟩
  · rw [← String.toList_inj, toList_basis, toList_basis, hback, hjoin]
  · rintro rfl
    exact hne hback.symm

section Keys

variable (py : Stdlib)

/-- `hashlib.sha256(text.encode()).hexdigest()[:16]`. -/
def keyDigest (text : String) : String := String.ofList ((py.sha256 text).toList.take 16)

theorem jobKey_eq {job : Job} {texts : List String} (h : HasTexts job texts) :
    jobKey py job = keyDigest py (basis texts) := by
  have hstr : (keyFields.map fun k ↦ Python.str py.repr (Python.getD job k (.str ""))) = texts := by
    have hmap := congrArg (List.map (Python.str py.repr)) h
    simpa [List.map_map, Function.comp_def, Python.str] using hmap
  rw [jobKey, keyDigest, basis]
  exact congrArg (fun texts ↦ String.ofList ((py.sha256 ("|".intercalate texts)).toList.take 16)) hstr

/-- No other text has the truncated digest of this one. -/
def CollisionFree (text : String) : Prop :=
  ∀ other, keyDigest py other = keyDigest py text → other = text

variable {py}

/-- The key of a job is that of the jobs with the same four texts alone, if and only if none of
the texts has a bar in it. -/
theorem jobKey_exact_iff {job : Job} {texts : List String} (hjob : HasTexts job texts)
    (hhash : CollisionFree py (basis texts)) :
    (∀ other others, HasTexts other others → (jobKey py other = jobKey py job ↔ others = texts)) ↔
      ∀ text ∈ texts, '|' ∉ text.toList := by
  constructor
  · intro hexact text htext hbar
    obtain ⟨others, hlength, hbasis, hne⟩ :=
      exists_basis_eq (by rw [hjob.length_eq]; decide) htext hbar
    have hother := hasTexts_jobOf (hlength.trans hjob.length_eq)
    apply hne
    rw [← hexact (jobOf others) others hother, jobKey_eq py hother, jobKey_eq py hjob, hbasis]
  · intro hbar other others hother
    rw [jobKey_eq py hother, jobKey_eq py hjob]
    constructor
    · intro hkey
      exact eq_of_basis_eq hbar (hother.length_eq.trans hjob.length_eq.symm) (hhash _ hkey)
    · rintro rfl
      rfl

end Keys

def sampleTexts : List String := ["d1", "P1", "In-Verification", "agent_dispatch"]

def sampleStdlib : Stdlib where
  repr _ := ""
  sha256 text :=
    if text = "d1|P1|In-Verification|agent_dispatch" then
      "c1c506bd03b611654614ea16cabf71d2353c03ffb4a906362f7d1968dfb2dc99"
    else ""
  fromisoformat _ := none

theorem jobKey_exact_sample :
    HasTexts (jobOf sampleTexts) sampleTexts ∧
    CollisionFree sampleStdlib (basis sampleTexts) ∧
    ((∀ other others, HasTexts other others →
      (jobKey sampleStdlib other = jobKey sampleStdlib (jobOf sampleTexts) ↔ others = sampleTexts)) ↔
      ∀ text ∈ sampleTexts, '|' ∉ text.toList) := by
  have hjob : HasTexts (jobOf sampleTexts) sampleTexts := rfl
  have hhash : CollisionFree sampleStdlib (basis sampleTexts) := by
    intro other hother
    by_contra hne
    have hbasis : basis sampleTexts = "d1|P1|In-Verification|agent_dispatch" := by decide
    rw [hbasis] at hother hne
    simp [keyDigest, sampleStdlib, hne] at hother
  exact ⟨hjob, hhash, jobKey_exact_iff hjob hhash⟩

/-- A bar in the delivery is read as one between the delivery and the issue. -/
theorem jobs_share_a_key :
    HasTexts (jobOf ["d1|P1", "P2", "Plan-Approved", "agent_dispatch"])
      ["d1|P1", "P2", "Plan-Approved", "agent_dispatch"] ∧
    HasTexts (jobOf ["d1", "P1|P2", "Plan-Approved", "agent_dispatch"])
      ["d1", "P1|P2", "Plan-Approved", "agent_dispatch"] ∧
    ["d1|P1", "P2", "Plan-Approved", "agent_dispatch"] ≠
      ["d1", "P1|P2", "Plan-Approved", "agent_dispatch"] ∧
    ∀ py, jobKey py (jobOf ["d1|P1", "P2", "Plan-Approved", "agent_dispatch"]) =
      jobKey py (jobOf ["d1", "P1|P2", "Plan-Approved", "agent_dispatch"]) := by
  refine ⟨rfl, rfl, by decide, fun py ↦ ?_⟩
  rw [jobKey_eq py (hasTexts_jobOf rfl), jobKey_eq py (hasTexts_jobOf rfl)]
  exact congrArg (keyDigest py) (by decide)

end AgenticSDLC.JobKeys
