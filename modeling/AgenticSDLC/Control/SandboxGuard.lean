import AgenticSDLC.Foundations.Outcome
import AgenticSDLC.Foundations.Paths
import AgenticSDLC.Foundations.Python

/-!
# Confinement to a directory

`check_worktree_confinement` of `tools/sandbox_guard.py`, and `_confine_to_root` of
`tools/orphan_detector.py`, which makes the same test.  The file system is given by
`os.path.realpath`, which raises nothing but a `ValueError` or an `OSError`.
-/

namespace AgenticSDLC.SandboxGuard

open Python (Exception)
open Outcome (pure_eq throw_eq)

section Checks

variable (realpath : String → Except Exception String)

/-- `text.startswith(start)`. -/
def startsWith (text start : String) : Bool := start.toList.isPrefixOf text.toList

def checkWorktreeConfinement (path allowedRoot : Json) : Bool :=
  match path, allowedRoot with
  | .str path, .str allowedRoot =>
      if path = "" || allowedRoot = "" then false
      else
        match realpath path, realpath allowedRoot with
        | .ok realPath, .ok realRoot =>
            if realPath = realRoot then true else startsWith realPath (realRoot ++ "/")
        | _, _ => false
  | _, _ => false

/-- `_confine_to_root`. -/
def confineToRoot (repr : Json → String) (path root : String) : Except Exception String := do
  let rootReal ← realpath root
  let resolved ← realpath path
  if resolved ≠ rootReal && !startsWith resolved (rootReal ++ "/") then
    throw ⟨"ValueError", "path " ++ repr (.str path) ++ " escapes the scan root " ++
      repr (.str root)⟩
  else return resolved

variable {realpath} {target root : RealPath}

theorem text_ne_empty (path : RealPath) : path.text ≠ "" := by
  simp [RealPath.text]

theorem startsWith_iff (text start : String) :
    startsWith text start = true ↔ start.toList <+: text.toList :=
  List.isPrefixOf_iff_prefix

/-- Below any directory but the root, the test on the texts compares the components. -/
theorem within_iff (hroot : root.names ≠ []) :
    target.text = root.text ∨ startsWith target.text (root.text ++ "/") = true ↔
      root.names <+: target.names := by
  rw [RealPath.text_inj, startsWith_iff, RealPath.text_append_prefix_iff hroot]
  constructor
  · rintro (hsame | ⟨hbelow, -⟩)
    · exact hsame ▸ List.prefix_rfl
    · exact hbelow
  · intro hbelow
    by_cases hsame : root.names = target.names
    · exact Or.inl hsame.symm
    · exact Or.inr ⟨hbelow, hsame⟩

theorem not_within_root (hroot : root.names = []) (htarget : target.names ≠ []) :
    ¬(target.text = root.text ∨ startsWith target.text (root.text ++ "/") = true) := by
  rw [RealPath.text_inj, startsWith_iff, hroot]
  rintro (hsame | hbelow)
  · exact htarget hsame
  · exact RealPath.not_text_prefix_of_root hroot hbelow

theorem checkWorktreeConfinement_eq (htarget : realpath target.text = .ok target.text)
    (hroot : realpath root.text = .ok root.text) :
    checkWorktreeConfinement realpath (.str target.text) (.str root.text) = true ↔
      target.text = root.text ∨ startsWith target.text (root.text ++ "/") = true := by
  simp only [checkWorktreeConfinement, text_ne_empty, htarget, hroot, decide_false, Bool.or_self,
    Bool.false_eq_true, if_false]
  split_ifs with hsame <;> simp [hsame]

/-- The check is containment by components, if and only if the root is not that of the file
system or the path is the root itself. -/
theorem checkWorktreeConfinement_iff (htarget : realpath target.text = .ok target.text)
    (hroot : realpath root.text = .ok root.text) :
    (checkWorktreeConfinement realpath (.str target.text) (.str root.text) = true ↔
        root.names <+: target.names) ↔
      root.names ≠ [] ∨ target.names = [] := by
  rw [checkWorktreeConfinement_eq htarget hroot]
  by_cases hfile : root.names = []
  · by_cases hsame : target.names = []
    · have htext : target.text = root.text := RealPath.text_inj.mpr (hsame.trans hfile.symm)
      simp [htext, hfile, hsame]
    · have hnot := not_within_root hfile hsame
      simp [hnot, hfile, hsame]
  · simp [within_iff hfile, hfile]

/-- The sibling lets a path through under the same test. -/
theorem confineToRoot_eq_ok_iff (repr : Json → String)
    (htarget : realpath target.text = .ok target.text)
    (hroot : realpath root.text = .ok root.text) (hfile : root.names ≠ []) :
    confineToRoot realpath repr target.text root.text = .ok target.text ↔
      root.names <+: target.names := by
  rw [← within_iff hfile, confineToRoot, hroot, htarget]
  by_cases hsame : target.text = root.text <;>
    by_cases hbelow : startsWith target.text (root.text ++ "/") = true <;>
      simp [hsame, hbelow, pure_eq, throw_eq]

end Checks

def samplePath (names : List String)
    (h : ∀ name ∈ names, (name ≠ "" ∧ name ≠ "." ∧ name ≠ "..") ∧ '/' ∉ name.toList) : RealPath where
  names := names
  normal name hname := (h name hname).1
  slashless name hname := (h name hname).2

def sampleRoot : RealPath := samplePath ["wt", "slice"] (by decide)

def sampleTarget : RealPath := samplePath ["wt", "slice", "main.py"] (by decide)

theorem checkWorktreeConfinement_sample :
    (checkWorktreeConfinement .ok (.str sampleTarget.text) (.str sampleRoot.text) = true ↔
        sampleRoot.names <+: sampleTarget.names) ↔
      sampleRoot.names ≠ [] ∨ sampleTarget.names = [] :=
  checkWorktreeConfinement_iff rfl rfl

def fileSystemRoot : RealPath := samplePath [] (by decide)

/-- With the root of the file system, the two slashes are looked for at the beginning. -/
theorem nothing_below_root :
    fileSystemRoot.names <+: sampleTarget.names ∧
    checkWorktreeConfinement .ok (.str sampleTarget.text) (.str fileSystemRoot.text) = false := by
  decide

end AgenticSDLC.SandboxGuard
