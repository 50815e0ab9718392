import AgenticSDLC.Foundations.Dict
import AgenticSDLC.Foundations.JsonCanonical
import AgenticSDLC.Foundations.Outcome
import AgenticSDLC.Foundations.Python

/-!
# The agent kill switch

`tools/kill_switch.py`: a capability may run when neither `kill.all` nor its own kill flag is
on.  The flags come from a file, and the loader leaves out each flag that it cannot resolve to
a boolean; the decision takes a flag that is left out for one that is off.
-/

namespace AgenticSDLC.KillSwitch

open Python (Exception)

def globalKillFlag : String := "kill.all"

def killFlagPrefix : String := "kill."

def gatedCapabilities : List String := ["initializer", "implementer", "verifier", "research"]

/-- A document as a JSON reader gives it: no object has a key twice. -/
abbrev Document := {value : Json // value.Native fun _ ↦ True}

/-! ## The decision -/

def coerceFlag : Json → Option Bool
  | .bool b => some b
  | .str text =>
      let norm := Text.asciiLower (Python.strip text)
      if norm ∈ ["true", "on"] then some true
      else if norm ∈ ["false", "off"] then some false
      else none
  | _ => none

def flagIsSet (flags : List (String × Json)) (key : String) : Option Bool :=
  match flags.lookup key with
  | some value => coerceFlag value
  | none => none

/-- The flag is on, or there without a clear value. -/
def kills (flags : List (String × Json)) (key : String) : Bool :=
  flagIsSet flags key = some true || (flags.lookup key).isSome && flagIsSet flags key = none

def isCapabilityEnabled (capability : String) (flags : Json) : Bool :=
  match flags with
  | .obj flags =>
      if capability ∉ gatedCapabilities then false
      else if kills flags globalKillFlag then false
      else if kills flags (killFlagPrefix ++ capability) then false
      else true
  | _ => false

/-! ## The loader -/

/-- A state other than `ENABLED`; a missing one reads as that. -/
def unserved (definition : List (String × Json)) : Prop :=
  Python.get definition "state" ≠ .null ∧ Python.get definition "state" ≠ .str "ENABLED"

instance (definition : List (String × Json)) : Decidable (unserved definition) :=
  inferInstanceAs (Decidable (_ ∧ _))

def resolveDefaultValue : Json → Except Exception (Option Bool)
  | .obj definition =>
      if unserved definition then .ok none
      else
        match Python.get definition "variants" with
        | .obj variants => do
            -- A key that cannot be hashed raises; one that is no text is in no such dictionary.
            match ← Python.hashKey (Python.get definition "defaultVariant") with
            | .str variant => return (variants.lookup variant).bind coerceFlag
            | _ => return none
        | _ => .ok none
  | _ => .ok none

/-- The member `flags` of a document, where both are objects. -/
def flagsObject : Json → Option (List (String × Json))
  | .obj members =>
      match Python.get members "flags" with
      | .obj flags => some flags
      | _ => none
  | _ => none

def loadFlag (resolved : List (String × Json)) (flag : String × Json) :
    Except Exception (List (String × Json)) := do
  match ← resolveDefaultValue flag.2 with
  | some value => return Dict.set flag.1 (.bool value) resolved
  | none => return resolved

def loadFlags (document : Json) : Except Exception (List (String × Json)) :=
  match flagsObject document with
  | some flags => flags.foldlM loadFlag []
  | none => .ok []

/-- The decision on the flags of a file. -/
def enabled (capability : String) (document : Json) : Except Exception Bool := do
  return isCapabilityEnabled capability (.obj (← loadFlags document))

/-! ## Flags -/

/-- The default variant of a definition has a clear value. -/
def DefaultsTo (definition : List (String × Json)) (b : Bool) : Prop :=
  ∃ variants variant value, Python.get definition "variants" = .obj variants ∧
    Python.get definition "defaultVariant" = .str variant ∧
      variants.lookup variant = some value ∧ coerceFlag value = some b

/-- The flag is absent, or not served, or clearly false by default. -/
def Off (flags : List (String × Json)) (key : String) : Prop :=
  ∀ flag, flags.lookup key = some flag →
    ∃ definition, flag = .obj definition ∧ (unserved definition ∨ DefaultsTo definition false)

/-- The flag is served, and clearly true by default. -/
def On (flags : List (String × Json)) (key : String) : Prop :=
  ∃ definition, flags.lookup key = some (.obj definition) ∧ ¬unserved definition ∧
    DefaultsTo definition true

/-- The name of the default variant is a list or a dictionary, and is looked up. -/
def Unhashable (flag : Json) : Prop :=
  ∃ definition variants, flag = .obj definition ∧ ¬unserved definition ∧
    Python.get definition "variants" = .obj variants ∧
      ((∃ items, Python.get definition "defaultVariant" = .arr items) ∨
        ∃ members, Python.get definition "defaultVariant" = .obj members)

/-- What a definition resolves to. -/
def resolvedValue (flag : Json) : Option Bool := (resolveDefaultValue flag).toOption.join

theorem not_unhashable_of_unserved {definition : List (String × Json)} (h : unserved definition) :
    ¬Unhashable (.obj definition) := by
  rintro ⟨other, variants, hflag, hserved, -⟩
  rw [Json.obj.inj hflag] at h
  exact hserved h

theorem resolveDefaultValue_served {definition variants : List (String × Json)}
    (hserved : ¬unserved definition) (hvariants : Python.get definition "variants" = .obj variants) :
    resolveDefaultValue (.obj definition) =
      match Python.get definition "defaultVariant" with
      | .str variant => .ok ((variants.lookup variant).bind coerceFlag)
      | .arr items => .error (Python.unhashable (.arr items))
      | .obj members => .error (Python.unhashable (.obj members))
      | _ => .ok none := by
  rw [resolveDefaultValue, if_neg hserved, hvariants]
  cases Python.get definition "defaultVariant" <;> rfl

theorem resolveDefaultValue_unserved {definition : List (String × Json)}
    (h : unserved definition) : resolveDefaultValue (.obj definition) = .ok none := by
  rw [resolveDefaultValue, if_pos h]

theorem resolveDefaultValue_of_no_variants {definition : List (String × Json)}
    (h : ∀ variants, Python.get definition "variants" ≠ .obj variants) :
    resolveDefaultValue (.obj definition) = .ok none := by
  rw [resolveDefaultValue]
  split_ifs
  · rfl
  · split
    · rename_i variants hvariants
      exact absurd hvariants (h variants)
    · rfl

/-- A definition resolves to the clear value of its default variant, and to nothing else. -/
theorem resolvedValue_obj_iff {definition : List (String × Json)} {b : Bool} :
    resolvedValue (.obj definition) = some b ↔ ¬unserved definition ∧ DefaultsTo definition b := by
  by_cases hserved : unserved definition
  · rw [resolvedValue, resolveDefaultValue_unserved hserved]
    exact iff_of_false (fun h ↦ by cases h) fun h ↦ h.1 hserved
  · rw [and_iff_right hserved]
    by_cases hvariants : ∃ variants, Python.get definition "variants" = .obj variants
    · obtain ⟨variants, hvariants⟩ := hvariants
      have hdefault : DefaultsTo definition b ↔
          ∃ variant, Python.get definition "defaultVariant" = .str variant ∧
            (variants.lookup variant).bind coerceFlag = some b := by
        constructor
        · rintro ⟨others, variant, value, hothers, hvariant, hvalue, hb⟩
          obtain rfl := Json.obj.inj (hvariants.symm.trans hothers)
          exact ⟨variant, hvariant, by rw [hvalue]; exact hb⟩
        · rintro ⟨variant, hvariant, hb⟩
          obtain ⟨value, hvalue, hb⟩ := Option.bind_eq_some_iff.mp hb
          exact ⟨variants, variant, value, hvariants, hvariant, hvalue, hb⟩
      rw [hdefault, resolvedValue, resolveDefaultValue_served hserved hvariants]
      cases Python.get definition "defaultVariant" with
      | str variant => simp [Except.toOption]
      | _ => simp [Except.toOption]
    · rw [resolvedValue, resolveDefaultValue_of_no_variants fun variants h ↦ hvariants ⟨variants, h⟩]
      apply iff_of_false (fun h ↦ by cases h)
      rintro ⟨variants, -, -, hobj, -⟩
      exact hvariants ⟨variants, hobj⟩

theorem resolvedValue_eq_some_iff {flag : Json} {b : Bool} :
    resolvedValue flag = some b ↔
      ∃ definition, flag = .obj definition ∧ ¬unserved definition ∧ DefaultsTo definition b := by
  cases flag with
  | obj definition =>
      rw [resolvedValue_obj_iff]
      constructor
      · exact fun h ↦ ⟨definition, rfl, h⟩
      · rintro ⟨other, hother, h⟩
        rwa [Json.obj.inj hother]
  | _ =>
      apply iff_of_false (fun h ↦ by cases h)
      rintro ⟨definition, hflag, -⟩
      cases hflag

theorem raises_iff (flag : Json) :
    (∃ exc, resolveDefaultValue flag = .error exc) ↔ Unhashable flag := by
  cases flag with
  | obj definition =>
      by_cases hserved : unserved definition
      · rw [resolveDefaultValue_unserved hserved]
        exact iff_of_false (fun ⟨_, h⟩ ↦ by cases h) (not_unhashable_of_unserved hserved)
      · by_cases hvariants : ∃ variants, Python.get definition "variants" = .obj variants
        · obtain ⟨variants, hvariants⟩ := hvariants
          have hunhashable : Unhashable (.obj definition) ↔
              (∃ items, Python.get definition "defaultVariant" = .arr items) ∨
                ∃ members, Python.get definition "defaultVariant" = .obj members := by
            constructor
            · rintro ⟨other, others, hother, -, -, hdefault⟩
              rwa [Json.obj.inj hother]
            · exact fun h ↦ ⟨definition, variants, rfl, hserved, hvariants, h⟩
          rw [hunhashable, resolveDefaultValue_served hserved hvariants]
          cases Python.get definition "defaultVariant" <;> simp
        · rw [resolveDefaultValue_of_no_variants fun variants h ↦ hvariants ⟨variants, h⟩]
          refine iff_of_false (fun ⟨_, h⟩ ↦ by cases h) ?_
          rintro ⟨other, variants, hother, -, hobj, -⟩
          rw [← Json.obj.inj hother] at hobj
          exact hvariants ⟨variants, hobj⟩
  | _ =>
      apply iff_of_false
      · rintro ⟨exc, hexc⟩
        cases hexc
      · rintro ⟨definition, variants, hflag, -⟩
        cases hflag

/-! ## Loading -/

/-- What is loaded for a key. -/
theorem lookup_foldlM_loadFlag {flags resolved loaded : List (String × Json)}
    (hnodup : (flags.map Prod.fst).Nodup) (h : flags.foldlM loadFlag resolved = .ok loaded)
    (key : String) :
    loaded.lookup key =
      (((flags.lookup key).bind resolvedValue).map Json.bool).or (resolved.lookup key) := by
  induction flags generalizing resolved with
  | nil =>
      obtain rfl := Except.ok.inj h
      rfl
  | cons flag flags ih =>
      rw [List.map_cons, List.nodup_cons] at hnodup
      obtain ⟨next, hnext, hrest⟩ := Outcome.foldlM_cons_eq_ok_iff.mp h
      obtain ⟨value, hvalue, hstep⟩ := Outcome.bind_eq_ok_iff.mp hnext
      have hlookup : next.lookup key = if key = flag.1 then
          ((resolvedValue flag.2).map Json.bool).or (resolved.lookup key)
          else resolved.lookup key := by
        rw [resolvedValue, hvalue]
        cases value with
        | none =>
            obtain rfl := Except.ok.inj hstep
            exact (ite_self _).symm
        | some b =>
            obtain rfl := Except.ok.inj hstep
            exact Dict.lookup_set _ _ _ _
      rw [ih hnodup.2 hrest, Dict.lookup_cons, hlookup]
      split_ifs with hsame
      · have hnone : flags.lookup key = none := by
          refine List.lookup_eq_none_iff.mpr fun other hother ↦ ?_
          rw [bne_iff_ne, hsame]
          intro hkey
          rw [hkey] at hnodup
          exact hnodup.1 (List.mem_map_of_mem hother)
        rw [hnone]
        rfl
      · rfl

theorem exists_loadFlag_iff (resolved : List (String × Json)) (flag : String × Json) :
    (∃ loaded, loadFlag resolved flag = .ok loaded) ↔ ¬Unhashable flag.2 := by
  rw [← raises_iff, loadFlag]
  cases resolveDefaultValue flag.2 with
  | error exc =>
      refine iff_of_false ?_ (not_not_intro ⟨exc, rfl⟩)
      rintro ⟨loaded, h⟩
      cases h
  | ok value =>
      apply iff_of_true
      · cases value <;> exact ⟨_, rfl⟩
      · rintro ⟨exc, h⟩
        cases h

theorem exists_foldlM_loadFlag_iff (flags resolved : List (String × Json)) :
    (∃ loaded, flags.foldlM loadFlag resolved = .ok loaded) ↔
      ∀ flag ∈ flags, ¬Unhashable flag.2 := by
  induction flags generalizing resolved with
  | nil => exact iff_of_true ⟨resolved, rfl⟩ (by simp)
  | cons flag flags ih =>
      rw [List.forall_mem_cons, ← exists_loadFlag_iff resolved flag]
      constructor
      · rintro ⟨loaded, h⟩
        obtain ⟨next, hnext, hrest⟩ := Outcome.foldlM_cons_eq_ok_iff.mp h
        exact ⟨⟨next, hnext⟩, (ih next).mp ⟨loaded, hrest⟩⟩
      · rintro ⟨⟨next, hnext⟩, hrest⟩
        obtain ⟨loaded, hloaded⟩ := (ih next).mpr hrest
        exact ⟨loaded, Outcome.foldlM_cons_eq_ok_iff.mpr ⟨next, hnext, hloaded⟩⟩

/-- A loaded flag kills just when the file has it on. -/
theorem kills_loaded_iff {flags loaded : List (String × Json)} (hnodup : (flags.map Prod.fst).Nodup)
    (h : flags.foldlM loadFlag [] = .ok loaded) (key : String) :
    kills loaded key = true ↔ On flags key := by
  have hon : On flags key ↔ (flags.lookup key).bind resolvedValue = some true := by
    rw [Option.bind_eq_some_iff]
    constructor
    · rintro ⟨definition, hflag, hserved, hdefault⟩
      exact ⟨_, hflag, resolvedValue_obj_iff.mpr ⟨hserved, hdefault⟩⟩
    · rintro ⟨flag, hflag, hvalue⟩
      obtain ⟨definition, rfl, hserved, hdefault⟩ := resolvedValue_eq_some_iff.mp hvalue
      exact ⟨definition, hflag, hserved, hdefault⟩
  have hloaded := lookup_foldlM_loadFlag hnodup h key
  rw [List.lookup_nil, Option.or_none] at hloaded
  rw [hon, kills, flagIsSet, hloaded]
  cases (flags.lookup key).bind resolvedValue with
  | none => simp
  | some b => cases b <;> simp [coerceFlag]

/-! ## The switch on a file -/

/-- The capability is enabled on flags that say so alone. -/
def FailsClosed (capability : String) (document : Json) : Prop :=
  enabled capability document = .ok true → ∃ flags, flagsObject document = some flags ∧
    Off flags globalKillFlag ∧ Off flags (killFlagPrefix ++ capability)

theorem enabled_of_no_flags {capability : String} (hgated : capability ∈ gatedCapabilities)
    {document : Json} (h : flagsObject document = none) :
    enabled capability document = .ok true := by
  rw [enabled, loadFlags, h, Outcome.ok_bind, isCapabilityEnabled, if_neg (not_not_intro hgated)]
  rfl

theorem enabled_iff {capability : String} (hgated : capability ∈ gatedCapabilities)
    {document : Json} {flags : List (String × Json)} (hnodup : (flags.map Prod.fst).Nodup)
    (h : flagsObject document = some flags) :
    enabled capability document = .ok true ↔ (∀ flag ∈ flags, ¬Unhashable flag.2) ∧
      ¬On flags globalKillFlag ∧ ¬On flags (killFlagPrefix ++ capability) := by
  have hload : loadFlags document = flags.foldlM loadFlag [] := by rw [loadFlags, h]
  rw [← exists_foldlM_loadFlag_iff flags [], enabled, hload]
  cases hloaded : flags.foldlM loadFlag [] with
  | error exc =>
      apply iff_of_false
      · intro henabled
        cases henabled
      · rintro ⟨⟨loaded, hok⟩, -⟩
        cases hok
  | ok loaded =>
      have hglobal := kills_loaded_iff hnodup hloaded globalKillFlag
      have hown := kills_loaded_iff hnodup hloaded (killFlagPrefix ++ capability)
      rw [and_iff_right ⟨loaded, rfl⟩, ← hglobal, ← hown]
      simp only [Outcome.ok_bind, isCapabilityEnabled, hgated, not_true_eq_false, if_false]
      cases kills loaded globalKillFlag <;>
        cases kills loaded (killFlagPrefix ++ capability) <;> simp [pure, Except.pure]

theorem nodup_of_flagsObject {document : Document} {flags : List (String × Json)}
    (h : flagsObject document.1 = some flags) : (flags.map Prod.fst).Nodup := by
  obtain ⟨value, hnative⟩ := document
  cases value with
  | obj members =>
      simp only [flagsObject] at h
      split at h
      · rename_i others hflags
        obtain rfl := Option.some.inj h
        have hlookup := (Python.get_eq_iff_of_ne_null Json.noConfusion).mp hflags
        have hmember := (Json.native_obj_iff.mp hnative).2 _ (Dict.mem_of_lookup hlookup)
        exact (Json.native_obj_iff.mp hmember).1
      · cases h
  | _ => cases h

/-- The kill switch fails closed on a file just when the file has flags, and one of the two
is on, or both are off, or the name of some default variant makes the loader raise. -/
theorem kill_switch_fails_closed_iff (document : Document) (capability : String)
    (hgated : capability ∈ gatedCapabilities) :
    FailsClosed capability document.1 ↔ ∃ flags, flagsObject document.1 = some flags ∧
      ((∃ flag ∈ flags, Unhashable flag.2) ∨ On flags globalKillFlag ∨
        On flags (killFlagPrefix ++ capability) ∨
          Off flags globalKillFlag ∧ Off flags (killFlagPrefix ++ capability)) := by
  rw [FailsClosed]
  cases hflags : flagsObject document.1 with
  | none =>
      refine iff_of_false (fun h ↦ ?_) ?_
      · obtain ⟨flags, hsome, -⟩ := h (enabled_of_no_flags hgated hflags)
        cases hsome
      · rintro ⟨flags, hsome, -⟩
        cases hsome
  | some flags =>
      have henabled := enabled_iff hgated (nodup_of_flagsObject hflags) hflags
      simp only [Option.some.injEq, exists_eq_left', henabled]
      constructor
      · intro h
        by_cases hraises : ∃ flag ∈ flags, Unhashable flag.2
        · exact Or.inl hraises
        · by_cases hglobal : On flags globalKillFlag
          · exact Or.inr (Or.inl hglobal)
          · by_cases hown : On flags (killFlagPrefix ++ capability)
            · exact Or.inr (Or.inr (Or.inl hown))
            · refine Or.inr (Or.inr (Or.inr (h ⟨fun flag hflag hbad ↦ ?_, hglobal, hown⟩)))
              exact hraises ⟨flag, hflag, hbad⟩
      · rintro (⟨flag, hflag, hbad⟩ | hglobal | hown | hoff) ⟨hnone, hnotGlobal, hnotOwn⟩
        · exact absurd hbad (hnone flag hflag)
        · exact absurd hglobal hnotGlobal
        · exact absurd hown hnotOwn
        · exact hoff

/-! ## Fixed files -/

/-- A file with the global kill flag alone, on by a value. -/
def killFile (value : Json) : Json :=
  .obj [("flags", .obj [("kill.all", .obj [("state", .str "ENABLED"),
    ("variants", .obj [("on", value), ("off", .bool false)]), ("defaultVariant", .str "on")])])]

theorem off_killFile_iff (value : Json) {flags : List (String × Json)}
    (h : flagsObject (killFile value) = some flags) :
    Off flags globalKillFlag ↔ coerceFlag value = some false := by
  obtain rfl := Option.some.inj h
  constructor
  · intro hoff
    obtain ⟨definition, hflag, hunserved | ⟨variants, variant, found, hvariants, hvariant, hfound,
      hfalse⟩⟩ := hoff _ rfl
    · obtain rfl := Json.obj.inj hflag
      exact absurd rfl hunserved.2
    · obtain rfl := Json.obj.inj hflag
      obtain rfl := Json.obj.inj hvariants
      obtain rfl := Json.str.inj hvariant
      obtain rfl := Option.some.inj hfound
      exact hfalse
  · rintro hfalse flag hflag
    obtain rfl := Option.some.inj hflag
    exact ⟨_, rfl, Or.inr ⟨_, _, _, rfl, rfl, rfl, hfalse⟩⟩

/-- The global switch is on by a text that is no flag. -/
theorem unclear_kill_fails_open :
    (killFile (.str "yes")).Native (fun _ ↦ True) ∧
      ¬FailsClosed "implementer" (killFile (.str "yes")) := by
  refine ⟨by simp [killFile, Json.Native, Json.NativeMembers], fun h ↦ ?_⟩
  obtain ⟨flags, hflags, hoff, -⟩ := h (by decide +kernel)
  have hfalse := (off_killFile_iff _ hflags).mp hoff
  exact absurd hfalse (by decide)

theorem kill_switch_fails_closed_sample : FailsClosed "implementer" (killFile (.bool true)) := by
  have hnative : (killFile (.bool true)).Native fun _ ↦ True := by
    simp [killFile, Json.Native, Json.NativeMembers]
  refine (kill_switch_fails_closed_iff ⟨killFile (.bool true), hnative⟩ "implementer"
    (by decide)).mpr ⟨_, rfl, Or.inr (Or.inl ⟨_, rfl, ?_, _, _, _, rfl, rfl, rfl, rfl⟩)⟩
  exact fun hunserved ↦ hunserved.2 rfl

end AgenticSDLC.KillSwitch
