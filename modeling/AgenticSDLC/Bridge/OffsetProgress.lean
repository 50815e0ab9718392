import AgenticSDLC.Bridge.AgentConsumer
import AgenticSDLC.Foundations.Runs

/-!
# Progress of the offset

The offset of the agent consumer is a cursor: a line is behind it just when it is
settled.  The drain gets over blank lines and over text that is no JSON, but not over
JSON that is no object, nor over a job that cannot be given to a command.
-/

namespace AgenticSDLC.AgentConsumer

open Python (Exception)
open Runs

/-! ## What can be given to a command -/

/-- A text without a NUL. -/
def Sendable (value : Json) : Prop := ∃ text, value = .str text ∧ Char.ofNat 0 ∉ text.toList

def SendableJob (live : Json) (job : Job) : Prop :=
  ∀ item ∈ jobEnv job live, Sendable item.2

theorem encodeVariable_eq_ok_iff {item : String × Json} {sent : String × String} :
    encodeVariable item = .ok sent ↔ item = (sent.1, .str sent.2) := by
  obtain ⟨name, value⟩ := item
  obtain ⟨other, text⟩ := sent
  cases value with
  | str text => simp [encodeVariable]
  | _ => simp [encodeVariable]

theorem encodeEnv_iff {env : List (String × Json)} :
    (∃ child, encodeEnv env = .ok child) ↔ ∀ item ∈ env, Sendable item.2 := by
  constructor
  · rintro ⟨child, h⟩ item hitem
    obtain ⟨all, hmap, hcheck⟩ := Outcome.bind_eq_ok_iff.mp h
    split_ifs at hcheck with hnul
    obtain ⟨sent, hmem, hencode⟩ := Outcome.exists_of_mapM_eq_ok hmap item hitem
    rw [encodeVariable_eq_ok_iff.mp hencode]
    exact ⟨sent.2, rfl, fun hin ↦ hnul ⟨sent, hmem, hin⟩⟩
  · intro h
    have hencode : ∀ item ∈ env, ∃ sent, encodeVariable item = .ok sent := by
      intro item hitem
      obtain ⟨text, htext, -⟩ := h item hitem
      exact ⟨(item.1, text), encodeVariable_eq_ok_iff.mpr (Prod.ext rfl htext)⟩
    obtain ⟨all, hmap⟩ := Outcome.mapM_eq_ok_of_forall hencode
    have hnul : ¬∃ sent ∈ all, Char.ofNat 0 ∈ sent.2.toList := by
      rintro ⟨sent, hmem, hin⟩
      obtain ⟨item, hitem, hsent⟩ := Outcome.exists_of_mem_mapM hmap sent hmem
      obtain ⟨text, htext, hclean⟩ := h item hitem
      rw [encodeVariable_eq_ok_iff.mp hsent] at htext
      exact hclean (Json.str.inj htext ▸ hin)
    exact ⟨all, by rw [encodeEnv, hmap, Outcome.ok_bind, if_neg hnul]; rfl⟩

theorem inherited_text {settings : Settings} {secret : Option String} {item : String × String}
    (h : item ∈ inherited settings secret) : Char.ofNat 0 ∉ item.2.toList := by
  have hfilter : ∀ item ∈ settings.environ.filter fun item ↦ item.1 ∉ roleSecretEnv.map Prod.snd,
      Char.ofNat 0 ∉ item.2.toList := fun item hitem ↦
    settings.environ_text item (List.mem_of_mem_filter hitem)
  simp only [inherited] at h
  split at h
  · exact hfilter item h
  · rename_i name
    split at h
    · exact hfilter item h
    · rename_i value hvalue
      split_ifs at h
      · exact hfilter item h
      · rcases Dict.mem_of_mem_set h with rfl | hold
        · exact settings.environ_text (name, value) (Dict.mem_of_lookup hvalue)
        · exact hfilter item hold

theorem sendable_childEnv_iff {settings : Settings} {secret : Option String} {job : Job}
    {live : Json} :
    (∀ item ∈ childEnv settings secret job live, Sendable item.2) ↔ SendableJob live job := by
  have hnames : (jobEnv job live).map Prod.fst =
      ["ASCP_ROLE", "ASCP_ISSUE_ID", "ASCP_STATE", "ASCP_ISSUE_NAME"] := rfl
  have hnodup : ((jobEnv job live).map Prod.fst).Nodup := by
    rw [hnames]
    decide
  obtain ⟨hnews, hall⟩ := Dict.mem_update hnodup
    ((inherited settings secret).map fun item ↦ (item.1, .str item.2))
  constructor
  · exact fun h item hitem ↦ h item (hnews item hitem)
  · intro h item hitem
    rcases hall item hitem with hjob | hold
    · exact h item hjob
    · obtain ⟨sent, hsent, rfl⟩ := List.mem_map.mp hold
      exact ⟨sent.2, rfl, inherited_text hsent⟩

/-! ## One line -/

section Lines

variable (settings : Settings) (toFloat : String → Json)

/-- The job of an agent that the line is. -/
def dispatchJob (text : String) : Option Job :=
  if Python.strip text = "" then none
  else
    match Json.loads toFloat (Python.strip text) with
    | some (.obj job) => if Python.get job "kind" = .str "agent_dispatch" then some job else none
    | _ => none

/-- A JSON value without the fields of a job. -/
def Foreign (text : String) : Prop :=
  Python.strip text ≠ "" ∧ ∃ value, Json.loads toFloat (Python.strip text) = some value ∧
    ∀ job, value ≠ .obj job

/-- The job is to be given to the command, and cannot be. -/
def Unsendable (live : Option Json) (job : Job) : Prop :=
  ∃ state, live = some state ∧ Python.eq state (Python.get job "state") = true ∧
    settings.dispatchCmd ≠ "" ∧
    ((∃ exc, Python.hashKey (Python.get job "agent_role") = .error exc) ∨ ¬SendableJob state job)

/-- A line that ends the drain with an exception. -/
def Breaks (live : Option Json) (text : String) : Prop :=
  Foreign toFloat text ∨ ∃ job, dispatchJob toFloat text = some job ∧ Unsendable settings live job

/-- The line is one of these that the drain acts on by the board. -/
def Handling.Acts : Handling → Prop
  | .stale | .wouldDispatch | .dispatched _ => True
  | .blank | .badLine | .noted _ | .retry => False

variable {settings toFloat}

theorem roleSecret_cases (role : Json) :
    (∃ exc, Python.hashKey role = .error exc ∧ roleSecret role = .error exc) ∨
      ((∀ exc, Python.hashKey role ≠ .error exc) ∧ ∃ secret, roleSecret role = .ok secret) := by
  cases role with
  | arr items => exact Or.inl ⟨_, rfl, rfl⟩
  | obj members => exact Or.inl ⟨_, rfl, rfl⟩
  | str role => exact Or.inr ⟨fun _ h ↦ (by cases h), _, rfl⟩
  | _ => exact Or.inr ⟨fun _ h ↦ (by cases h), _, rfl⟩

variable (settings) in
theorem dispatch_cases (live : Option Json) (job : Job) :
    (Unsendable settings live job ∧ ∃ exc, dispatch settings live job = .error exc) ∨
      (¬Unsendable settings live job ∧ ∃ handling, dispatch settings live job = .ok handling ∧
        ((live = none ∧ handling = .retry) ∨ (live ≠ none ∧ handling.Acts))) := by
  cases live with
  | none =>
      refine Or.inr ⟨?_, .retry, rfl, Or.inl ⟨rfl, rfl⟩⟩
      rintro ⟨state, hstate, -⟩
      cases hstate
  | some state =>
      simp only [dispatch]
      split_ifs with hstale hdry
      · refine Or.inr ⟨?_, .stale, rfl, Or.inr ⟨Option.some_ne_none state, trivial⟩⟩
        rintro ⟨other, hother, heq, -⟩
        rw [← Option.some.inj hother, hstale] at heq
        cases heq
      · refine Or.inr ⟨?_, .wouldDispatch, rfl, Or.inr ⟨Option.some_ne_none state, trivial⟩⟩
        rintro ⟨other, -, -, hcmd, -⟩
        exact hcmd hdry
      · have heq : Python.eq state (Python.get job "state") = true := eq_true_of_ne_false hstale
        rcases roleSecret_cases (Python.get job "agent_role") with
          ⟨exc, hhash, hrole⟩ | ⟨hhash, secret, hrole⟩
        · exact Or.inl ⟨⟨state, rfl, heq, hdry, Or.inl ⟨exc, hhash⟩⟩, exc, by rw [hrole]; rfl⟩
        · rw [hrole, Outcome.ok_bind]
          cases hencode : encodeEnv (childEnv settings secret job state) with
          | error exc =>
              refine Or.inl ⟨⟨state, rfl, heq, hdry, Or.inr fun hsendable ↦ ?_⟩, exc, rfl⟩
              obtain ⟨child, hchild⟩ := encodeEnv_iff.mpr (sendable_childEnv_iff.mpr hsendable)
              rw [hencode] at hchild
              cases hchild
          | ok child =>
              refine Or.inr ⟨?_, .dispatched child, rfl, Or.inr ⟨Option.some_ne_none state, trivial⟩⟩
              rintro ⟨other, hother, -, -, ⟨exc, hraises⟩ | hunsendable⟩
              · exact hhash exc hraises
              · rw [← Option.some.inj hother] at hunsendable
                exact hunsendable (sendable_childEnv_iff.mp (encodeEnv_iff.mp ⟨child, hencode⟩))

variable (settings toFloat) in
/-- A line breaks the drain, waits for the board, or is settled; what is done with a job
is to act on it. -/
theorem handle_cases (live : Option Json) (text : String) :
    (Breaks settings toFloat live text ∧ ∃ exc, handle settings toFloat live text = .error exc) ∨
      (¬Breaks settings toFloat live text ∧ ∃ handling,
        handle settings toFloat live text = .ok handling ∧
        (handling = .retry ↔ (dispatchJob toFloat text).isSome = true ∧ live = none) ∧
        (handling.Acts ↔ (dispatchJob toFloat text).isSome = true ∧ live ≠ none)) := by
  by_cases hblank : Python.strip text = ""
  · have hjob : dispatchJob toFloat text = none := if_pos hblank
    refine Or.inr ⟨?_, .blank, if_pos hblank, by simp [hjob], by simp [hjob, Handling.Acts]⟩
    rintro (hforeign | ⟨job, hsome, -⟩)
    · exact hforeign.1 hblank
    · rw [hjob] at hsome
      cases hsome
  · cases hloads : Json.loads toFloat (Python.strip text) with
    | none =>
        have hjob : dispatchJob toFloat text = none := by
          rw [dispatchJob, if_neg hblank, hloads]
        refine Or.inr ⟨?_, .badLine, by simp only [handle, if_neg hblank, hloads], by simp [hjob],
          by simp [hjob, Handling.Acts]⟩
        rintro (⟨-, value, hvalue, -⟩ | ⟨job, hsome, -⟩)
        · rw [hloads] at hvalue
          cases hvalue
        · rw [hjob] at hsome
          cases hsome
    | some value =>
        simp only [handle, if_neg hblank, hloads]
        cases hdict : Python.asDict value with
        | error exc =>
            refine Or.inl ⟨Or.inl ⟨hblank, value, hloads, ?_⟩, exc, rfl⟩
            rintro job rfl
            cases hdict
        | ok job =>
            obtain rfl : value = .obj job := by
              cases value <;> cases hdict
              rfl
            have hforeign : ¬Foreign toFloat text := by
              rintro ⟨-, value, hvalue, hno⟩
              exact hno job (Option.some.inj (hvalue.symm.trans hloads))
            rw [Outcome.ok_bind]
            split_ifs with hkind
            · have hjob : dispatchJob toFloat text = some job := by
                rw [dispatchJob, if_neg hblank, hloads]
                exact if_pos hkind
              rcases dispatch_cases settings live job with
                ⟨hunsendable, exc, hexc⟩ | ⟨hsendable, handling, hhandling, hcase⟩
              · exact Or.inl ⟨Or.inr ⟨job, hjob, hunsendable⟩, exc, hexc⟩
              · refine Or.inr ⟨?_, handling, hhandling, ?_, ?_⟩
                · rintro (hyes | ⟨other, hother, hunsendable⟩)
                  · exact hforeign hyes
                  · rw [← Option.some.inj (hjob.symm.trans hother)] at hunsendable
                    exact hsendable hunsendable
                · rcases hcase with ⟨hlive, rfl⟩ | ⟨hlive, hacts⟩
                  · simp [hjob, hlive]
                  · simp only [hjob, Option.isSome_some, hlive, and_false, iff_false]
                    rintro rfl
                    exact hacts
                · rcases hcase with ⟨hlive, rfl⟩ | ⟨hlive, hacts⟩
                  · simp [hlive, Handling.Acts]
                  · simp [hjob, hlive, hacts]
            · have hjob : dispatchJob toFloat text = none := by
                rw [dispatchJob, if_neg hblank, hloads]
                exact if_neg hkind
              refine Or.inr ⟨?_, .noted (Python.get job "kind"), rfl, by simp [hjob],
                by simp [hjob, Handling.Acts]⟩
              rintro (hyes | ⟨other, hother, -⟩)
              · exact hforeign hyes
              · rw [hjob] at hother
                cases hother

/-! ## The loop -/

variable (settings toFloat) in
/-- The place holds a job whose issue cannot be fetched. -/
def WaitsAt (lines : List String) (board : ℤ → Option Json) (n : ℕ) : Prop :=
  ∃ text, lines[n]? = some text ∧ (dispatchJob toFloat text).isSome = true ∧ board n = none

variable (settings toFloat) in
def BreaksAt (lines : List String) (board : ℤ → Option Json) (n : ℕ) : Prop :=
  ∃ text, lines[n]? = some text ∧ Breaks settings toFloat (board n) text

variable (settings toFloat) in
/-- From the place on, a line comes before each that breaks the drain and makes it stop. -/
def Passable (lines : List String) (board : ℤ → Option Json) (start : ℤ) : Prop :=
  ∀ n : ℕ, start ≤ n → (∀ k : ℕ, start ≤ k → k < n → ¬WaitsAt toFloat lines board k) →
    ¬BreaksAt settings toFloat lines board n

variable (toFloat) in
/-- The event settles its line; with a job it does so by the state of the board. -/
structure Settled (lines : List String) (event : Event) : Prop where
  settled : event.handling ≠ .retry
  acts : ∃ text, lines[event.line]? = some text ∧
    (event.handling.Acts ↔ (dispatchJob toFloat text).isSome = true)

/-- The events are on the lines from `start` to `final`, one after the other. -/
structure InOrder (start final : ℤ) (events : List Event) : Prop where
  line : ∀ (k : ℕ) (event : Event), events[k]? = some event → (event.line : ℤ) = start + k
  length : (events.length : ℤ) = final - start

theorem lineAt_natCast (lines : List String) (n : ℕ) :
    lineAt lines n = lines[n]?.map fun text ↦ (n, text) := by
  have hn : ¬(n : ℤ) < 0 := by omega
  simp only [lineAt, if_neg hn, Int.toNat_natCast]

theorem inOrder_cons {start final : ℤ} {event : Event} {events : List Event}
    (hline : (event.line : ℤ) = start) (h : InOrder (start + 1) final events) :
    InOrder start final (event :: events) := by
  constructor
  · intro k other hother
    cases k with
    | zero =>
        rw [List.getElem?_cons_zero] at hother
        rw [← Option.some.inj hother, hline]
        omega
    | succ k =>
        rw [List.getElem?_cons_succ] at hother
        have hrest := h.line k other hother
        push_cast
        omega
  · have hlength := h.length
    rw [List.length_cons]
    push_cast
    omega

variable (settings toFloat) in
theorem settleLines_succ {lines : List String} {board : ℤ → Option Json} {i : ℤ} {line : ℕ}
    {text : String} {handling : Handling} (hline : lineAt lines i = some (line, text))
    (hhandling : handle settings toFloat (board i) text = .ok handling) (hne : handling ≠ .retry)
    (left : ℕ) (progress : Progress) :
    settleLines settings toFloat lines board (left + 1) i progress =
      settleLines settings toFloat lines board left (i + 1)
        ⟨some (i + 1), progress.count + handling.count, progress.log ++ [⟨line, handling⟩]⟩ := by
  cases handling with
  | retry => exact absurd rfl hne
  | _ => simp only [settleLines, hline, hhandling]

theorem breaksAt_iff {lines : List String} {board : ℤ → Option Json} {n : ℕ} {text : String}
    (htext : lines[n]? = some text) :
    BreaksAt settings toFloat lines board n ↔ Breaks settings toFloat (board n) text := by
  constructor
  · rintro ⟨other, hother, hbreaks⟩
    rwa [← Option.some.inj (htext.symm.trans hother)] at hbreaks
  · exact fun hbreaks ↦ ⟨text, htext, hbreaks⟩

theorem waitsAt_iff {lines : List String} {board : ℤ → Option Json} {n : ℕ} {text : String}
    (htext : lines[n]? = some text) :
    WaitsAt toFloat lines board n ↔ (dispatchJob toFloat text).isSome = true ∧ board n = none := by
  constructor
  · rintro ⟨other, hother, hwaits⟩
    rwa [← Option.some.inj (htext.symm.trans hother)] at hwaits
  · exact fun hwaits ↦ ⟨text, htext, hwaits⟩

/-- A drain that does not wait at the place goes on behind it. -/
theorem passable_iff {lines : List String} {board : ℤ → Option Json} {start : ℕ} :
    Passable settings toFloat lines board start ↔ ¬BreaksAt settings toFloat lines board start ∧
      (¬WaitsAt toFloat lines board start →
        Passable settings toFloat lines board (start + 1 : ℕ)) := by
  constructor
  · intro h
    refine ⟨h start le_rfl fun k hk hlt ↦ by omega, fun hclear n hn hfree ↦ ?_⟩
    refine h n (by omega) fun k hk hkn ↦ ?_
    rcases Nat.eq_or_lt_of_le (Int.ofNat_le.mp hk) with rfl | hlt
    · exact hclear
    · exact hfree k (by omega) hkn
  · rintro ⟨hbreaks, hrest⟩ n hn hfree
    rcases Nat.eq_or_lt_of_le (Int.ofNat_le.mp hn) with rfl | hlt
    · exact hbreaks
    · exact hrest (hfree start le_rfl hlt) n (by omega) fun k hk hkn ↦ hfree k (by omega) hkn

variable (settings toFloat) in
theorem settleLines_cases (lines : List String) (board : ℤ → Option Json) (left start : ℕ)
    (hlength : start + left = lines.length) (progress : Progress)
    (hoffset : readOffset progress.offset = start) :
    (∃ exc next, settleLines settings toFloat lines board left start progress = .error (exc, next) ∧
        ¬Passable settings toFloat lines board start) ∨
      (Passable settings toFloat lines board start ∧ ∃ next, ∃ final : ℕ, ∃ events,
        settleLines settings toFloat lines board left start progress = .ok next ∧
        start ≤ final ∧ readOffset next.offset = final ∧
        (∀ event ∈ events, Settled toFloat lines event) ∧ InOrder start final events ∧
        ((final = lines.length ∧ next.log = progress.log ++ events) ∨
          (WaitsAt toFloat lines board final ∧
            next.log = progress.log ++ events ++ [⟨final, .retry⟩]))) := by
  induction left generalizing start progress with
  | zero =>
      refine Or.inr ⟨?_, progress, start, [], rfl, le_rfl, hoffset, by simp, ⟨by simp, by simp⟩,
        Or.inl ⟨hlength, by simp⟩⟩
      rintro n hn - ⟨text, htext, -⟩
      rw [List.getElem?_eq_none (by omega)] at htext
      cases htext
  | succ left ih =>
      obtain ⟨text, htext⟩ : ∃ text, lines[start]? = some text :=
        ⟨_, List.getElem?_eq_getElem (by omega)⟩
      have hline : lineAt lines start = some (start, text) := by
        rw [lineAt_natCast, htext]
        rfl
      rw [passable_iff, breaksAt_iff htext, waitsAt_iff htext]
      rcases handle_cases settings toFloat (board start) text with
        ⟨hbreaks, exc, hexc⟩ | ⟨hgoes, handling, hhandling, hretry, hacts⟩
      · exact Or.inl ⟨exc, progress, by simp only [settleLines, hline, hexc], fun h ↦ h.1 hbreaks⟩
      · by_cases hwaits : handling = .retry
        · have hstuck := hretry.mp hwaits
          rw [hwaits] at hhandling
          exact Or.inr ⟨⟨hgoes, fun hclear ↦ absurd hstuck hclear⟩,
            { progress with log := progress.log ++ [⟨start, .retry⟩] }, start, [],
            by simp only [settleLines, hline, hhandling], le_rfl, hoffset, by simp,
            ⟨by simp, by simp⟩, Or.inr ⟨(waitsAt_iff htext).mpr hstuck, by simp⟩⟩
        · have hclear := mt hretry.mpr hwaits
          have hevent : Settled toFloat lines ⟨start, handling⟩ := by
            refine ⟨hwaits, text, htext, hacts.trans ⟨And.left, fun hjob ↦ ⟨hjob, fun hlive ↦ ?_⟩⟩⟩
            exact hclear ⟨hjob, hlive⟩
          have hstep := settleLines_succ settings toFloat hline hhandling hwaits left progress
          have hcast : ((start + 1 : ℕ) : ℤ) = start + 1 := by omega
          rw [← hcast] at hstep
          rw [hstep]
          have hrest := ih (start + 1) (by omega) ⟨some (start + 1 : ℕ),
            progress.count + handling.count, progress.log ++ [⟨start, handling⟩]⟩ rfl
          rcases hrest with ⟨exc, next, hnext, hfails⟩ |
            ⟨hpassable, next, final, events, hnext, hle, hfinal, hsettled, horder, hend⟩
          · exact Or.inl ⟨exc, next, hnext, fun h ↦ hfails (h.2 hclear)⟩
          · refine Or.inr ⟨⟨hgoes, fun _ ↦ hpassable⟩, next, final, ⟨start, handling⟩ :: events, hnext,
              by omega, hfinal, ?_, inOrder_cons rfl ?_, ?_⟩
            · intro event hmem
              rcases List.mem_cons.mp hmem with rfl | hrest
              · exact hevent
              · exact hsettled event hrest
            · exact_mod_cast horder
            · simpa using hend

theorem settleLines_log {lines : List String} {board : ℤ → Option Json} {left : ℕ} {i : ℤ}
    {progress next : Progress}
    (h : settleLines settings toFloat lines board left i progress = .ok next) :
    progress.log <+: next.log := by
  induction left generalizing i progress with
  | zero =>
      cases h
      exact List.prefix_rfl
  | succ left ih =>
      rw [settleLines] at h
      split at h
      · cases h
      · split at h
        · cases h
        · cases h
          exact List.prefix_append _ _
        · exact (List.prefix_append _ _).trans (ih h)

end Lines

/-! ## One drain -/

section World

variable (toFloat : String → Json)

def World.lines (world : World) : List String :=
  match world.queue with
  | none => []
  | some queue => queueLines queue

/-- No line of the queue is torn. -/
def World.Whole (world : World) : Prop :=
  ∀ queue, world.queue = some queue → ∀ c, queue.toList.getLast? = some c → c = '\n'

/-- What a drain has to do. -/
structure World.Drained (world : World) (drain : Drain) : Prop where
  returns : ∃ count, (world.drain toFloat drain).2 = .ok count
  grows : readOffset world.offset ≤ readOffset (world.drain toFloat drain).1.offset
  settles : ∃ events, (∀ event ∈ events, Settled toFloat world.lines event) ∧
    InOrder (readOffset world.offset) (readOffset (world.drain toFloat drain).1.offset) events ∧
    ((readOffset (world.drain toFloat drain).1.offset = world.lines.length ∧
        (world.drain toFloat drain).1.log = world.log ++ events) ∨
      ∃ n : ℕ, readOffset (world.drain toFloat drain).1.offset = n ∧
        WaitsAt toFloat world.lines drain.board n ∧
        (world.drain toFloat drain).1.log = world.log ++ events ++ [⟨n, .retry⟩])

/-- The offset is in the queue, and nothing that the drain comes to breaks it. -/
structure World.Fit (world : World) (drain : Drain) : Prop where
  nonneg : 0 ≤ readOffset world.offset
  le_length : readOffset world.offset ≤ world.lines.length
  passable : Passable drain.settings toFloat world.lines drain.board (readOffset world.offset)

def World.DrainedStep (world : World) : Action → Prop
  | .append _ => True
  | .drain drain => world.Drained toFloat drain

def World.FitStep (world : World) : Action → Prop
  | .append _ => True
  | .drain drain => world.Fit toFloat drain

variable {toFloat}

theorem complete_of_whole {queue : String} (h : ∀ c, queue.toList.getLast? = some c → c = '\n') :
    complete queue = (queueLines queue).length := by
  rw [complete]
  split_ifs with hend
  · rfl
  · cases hlast : queue.toList.getLast? with
    | some c => exact absurd (h c hlast ▸ hlast) hend
    | none =>
        have hnil : queueLines queue = [] := by
          rw [queueLines, List.getLast?_eq_none_iff.mp hlast]
          rfl
        rw [hnil]
        rfl

variable (toFloat) in
/-- The drain of a whole queue is the loop over its lines. -/
theorem World.drain_eq {world : World} (hwhole : world.Whole) (drain : Drain) :
    (world.drain toFloat drain = (world, .ok 0) ∧ world.lines = [] ∧ world.queue = none) ∨
      world.drain toFloat drain =
        match settleLines drain.settings toFloat world.lines drain.board
            (world.lines.length - readOffset world.offset).toNat (readOffset world.offset)
            ⟨world.offset, 0, world.log⟩ with
        | .error (exc, progress) =>
            ({ world with offset := progress.offset, log := progress.log }, .error exc)
        | .ok progress =>
            ({ world with offset := progress.offset, log := progress.log }, .ok progress.count) := by
  obtain ⟨queue, offset, log⟩ := world
  cases queue with
  | none => exact Or.inl ⟨rfl, rfl, rfl⟩
  | some queue =>
      have hlength : (World.lines ⟨some queue, offset, log⟩).length = complete queue :=
        (complete_of_whole (hwhole queue rfl)).symm
      apply Or.inr
      rw [hlength]
      rfl

theorem waitsAt_lt {lines : List String} {board : ℤ → Option Json} {n : ℕ}
    (h : WaitsAt toFloat lines board n) : n < lines.length := by
  obtain ⟨text, htext, -⟩ := h
  exact (List.getElem?_eq_some_iff.mp htext).1

theorem World.Fit.drained {world : World} (hwhole : world.Whole) {drain : Drain}
    (h : world.Fit toFloat drain) : world.Drained toFloat drain := by
  obtain ⟨start, hstart⟩ := Int.eq_ofNat_of_zero_le h.nonneg
  have hle := h.le_length
  rcases World.drain_eq toFloat hwhole drain with ⟨hdrain, hlines, -⟩ | hdrain
  · rw [hlines, List.length_nil] at hle
    have hzero : readOffset world.offset = 0 := le_antisymm hle h.nonneg
    refine ⟨⟨0, by rw [hdrain]⟩, by rw [hdrain], [], by simp, ?_, Or.inl ⟨?_, by simp [hdrain]⟩⟩
    · rw [hdrain]
      exact ⟨by simp, by simp⟩
    · rw [hdrain, hlines, hzero]
      rfl
  · have hleft : (world.lines.length - readOffset world.offset).toNat =
        world.lines.length - start := by omega
    rw [hleft, hstart] at hdrain
    have hpassable := h.passable
    rw [hstart] at hpassable
    rcases settleLines_cases drain.settings toFloat world.lines drain.board
      (world.lines.length - start) start (by omega) ⟨world.offset, 0, world.log⟩ hstart with
      ⟨exc, next, -, hfails⟩ | ⟨-, next, final, events, hnext, hlt, hfinal, hsettled, horder, hend⟩
    · exact absurd hpassable hfails
    · rw [hnext] at hdrain
      refine ⟨⟨next.count, by rw [hdrain]⟩, ?_, events, hsettled, ?_, ?_⟩
      · simp only [hdrain, hfinal, hstart]
        omega
      · simp only [hdrain, hfinal, hstart]
        exact horder
      · simp only [hdrain, hfinal]
        rcases hend with ⟨hlast, hlog⟩ | ⟨hwaits, hlog⟩
        · exact Or.inl ⟨by rw [hlast], hlog⟩
        · exact Or.inr ⟨final, rfl, hwaits, hlog⟩

/-- From a negative offset on, the lines at the end come first. -/
theorem World.not_drained_of_neg {world : World} (hwhole : world.Whole) {drain : Drain}
    (h : readOffset world.offset < 0) : ¬world.Drained toFloat drain := by
  intro hdrained
  obtain ⟨count, hreturns⟩ := hdrained.returns
  obtain ⟨events, hsettled, horder, hend⟩ := hdrained.settles
  rcases World.drain_eq toFloat hwhole drain with ⟨hdrain, hlines, -⟩ | hdrain
  · simp only [hdrain, hlines] at hend
    rcases hend with ⟨hfinal, -⟩ | ⟨n, hfinal, -⟩
    · rw [List.length_nil] at hfinal
      exact absurd hfinal (by omega)
    · exact absurd hfinal (by omega)
  · obtain ⟨left, hleft⟩ : ∃ left, (world.lines.length - readOffset world.offset).toNat = left + 1 :=
      ⟨(world.lines.length - readOffset world.offset).toNat - 1, by omega⟩
    rw [hleft] at hdrain
    cases hline : lineAt world.lines (readOffset world.offset) with
    | none =>
        simp only [settleLines, hline] at hdrain
        rw [hdrain] at hreturns
        cases hreturns
    | some found =>
        obtain ⟨line, text⟩ := found
        rcases handle_cases drain.settings toFloat (drain.board (readOffset world.offset)) text with
          ⟨-, exc, hexc⟩ | ⟨-, handling, hhandling, -⟩
        · simp only [settleLines, hline, hexc] at hdrain
          rw [hdrain] at hreturns
          cases hreturns
        · by_cases hretry : handling = .retry
          · rw [hretry] at hhandling
            simp only [settleLines, hline, hhandling] at hdrain
            simp only [hdrain] at hend
            rcases hend with ⟨hfinal, -⟩ | ⟨n, hfinal, -⟩
            · exact absurd hfinal (by omega)
            · exact absurd hfinal (by omega)
          · rw [settleLines_succ drain.settings toFloat hline hhandling hretry] at hdrain
            cases hnext : settleLines drain.settings toFloat world.lines drain.board left
              (readOffset world.offset + 1) ⟨some (readOffset world.offset + 1), 0 + handling.count,
                world.log ++ [⟨line, handling⟩]⟩ with
            | error failure =>
                rw [hnext] at hdrain
                rw [hdrain] at hreturns
                cases hreturns
            | ok next =>
                rw [hnext] at hdrain
                obtain ⟨more, hmore⟩ := settleLines_log hnext
                rw [List.append_assoc, List.singleton_append] at hmore
                have hfirst : ∃ rest, events = ⟨line, handling⟩ :: rest := by
                  simp only [hdrain, ← hmore] at hend
                  rcases hend with ⟨-, hlog⟩ | ⟨n, -, -, hlog⟩
                  · exact ⟨more, (List.append_cancel_left hlog).symm⟩
                  · rw [List.append_assoc] at hlog
                    have hrest := List.append_cancel_left hlog
                    cases events with
                    | nil =>
                        obtain ⟨hsame, -⟩ := List.cons.inj hrest
                        exact absurd (congrArg Event.handling hsame) hretry
                    | cons event rest => exact ⟨rest, by rw [(List.cons.inj hrest).1]⟩
                obtain ⟨rest, rfl⟩ := hfirst
                have hplace : (line : ℤ) = readOffset world.offset + (0 : ℕ) :=
                  horder.line 0 _ rfl
                omega

theorem World.drained_iff {world : World} (hwhole : world.Whole) (drain : Drain) :
    world.Drained toFloat drain ↔ world.Fit toFloat drain := by
  refine ⟨fun h ↦ ?_, World.Fit.drained hwhole⟩
  rcases Int.lt_or_le (readOffset world.offset) 0 with hneg | hnonneg
  · exact absurd h (World.not_drained_of_neg hwhole hneg)
  obtain ⟨start, hstart⟩ := Int.eq_ofNat_of_zero_le hnonneg
  obtain ⟨events, -, -, hend⟩ := h.settles
  have hle : readOffset world.offset ≤ world.lines.length := by
    apply h.grows.trans
    rcases hend with ⟨hfinal, -⟩ | ⟨n, hfinal, hwaits, -⟩
    · exact hfinal.le
    · have hlt := waitsAt_lt hwaits
      omega
  refine ⟨hnonneg, hle, ?_⟩
  rcases World.drain_eq toFloat hwhole drain with ⟨-, hlines, -⟩ | hdrain
  · rintro n - - ⟨text, htext, -⟩
    rw [hlines] at htext
    cases htext
  · have hleft : (world.lines.length - readOffset world.offset).toNat =
        world.lines.length - start := by omega
    rw [hleft, hstart] at hdrain
    rw [hstart]
    rcases settleLines_cases drain.settings toFloat world.lines drain.board
      (world.lines.length - start) start (by omega) ⟨world.offset, 0, world.log⟩ hstart with
      ⟨exc, next, hnext, -⟩ | ⟨hpassable, -⟩
    · obtain ⟨count, hreturns⟩ := h.returns
      rw [hdrain, hnext] at hreturns
      cases hreturns
    · exact hpassable

/-- JSON that is no object stops every drain that finds it at the offset. -/
theorem World.drain_of_foreign {world : World} (hwhole : world.Whole) {n : ℕ} {text : String}
    (hoffset : readOffset world.offset = n) (htext : world.lines[n]? = some text)
    (hforeign : Foreign toFloat text) (drain : Drain) :
    ∃ exc, world.drain toFloat drain = (world, .error exc) := by
  rcases World.drain_eq toFloat hwhole drain with ⟨-, hlines, -⟩ | hdrain
  · rw [hlines] at htext
    cases htext
  · have hlt := (List.getElem?_eq_some_iff.mp htext).1
    obtain ⟨left, hleft⟩ : ∃ left, (world.lines.length - readOffset world.offset).toNat = left + 1 :=
      ⟨(world.lines.length - readOffset world.offset).toNat - 1, by omega⟩
    have hline : lineAt world.lines (readOffset world.offset) = some (n, text) := by
      rw [hoffset, lineAt_natCast, htext]
      rfl
    rcases handle_cases drain.settings toFloat (drain.board (readOffset world.offset)) text with
      ⟨-, exc, hexc⟩ | ⟨hgoes, -⟩
    · simp only [hleft, settleLines, hline, hexc] at hdrain
      exact ⟨exc, hdrain⟩
    · exact absurd (Or.inl hforeign) hgoes

/-! ## Runs -/

variable (toFloat) in
/-- What the lines from the first offset up to the present one have come to. -/
structure World.Accounted (first : ℤ) (world : World) : Prop where
  first_le : first ≤ readOffset world.offset
  acted : ∀ n : ℕ, first ≤ n → (n : ℤ) < readOffset world.offset → ∀ text,
    world.lines[n]? = some text → (dispatchJob toFloat text).isSome = true →
      ∃ event ∈ world.log, event.line = n ∧ event.handling.Acts
  once : world.log.Pairwise fun earlier later ↦
    earlier.handling ≠ .retry → earlier.line < later.line

variable (toFloat) in
/-- The offset stays in the queue once it has moved, and settled lines are behind it. -/
structure World.Cursor (first : ℤ) (world : World) : Prop where
  accounted : world.Accounted toFloat first
  whole : world.Whole
  within : readOffset world.offset = first ∨ readOffset world.offset ≤ world.lines.length
  behind : ∀ event ∈ world.log, event.handling ≠ .retry → (event.line : ℤ) < readOffset world.offset

variable (toFloat) in
theorem World.lines_append {world : World} (hwhole : world.Whole) (text : String) :
    (world.step toFloat (.append text)).lines =
      world.lines ++ (Text.splitlines (text.toList ++ ['\n'])).map String.ofList := by
  cases hqueue : world.queue with
  | none =>
      simp only [World.step, World.lines, hqueue, Option.getD_none, queueLines,
        String.toList_append, List.nil_append]
      rfl
  | some queue =>
      simp only [World.step, World.lines, hqueue, Option.getD_some, queueLines,
        String.toList_append, List.append_assoc]
      rw [Text.splitlines_append (hwhole queue hqueue), List.map_append]
      rfl

theorem World.whole_append (world : World) (text : String) :
    (world.step toFloat (.append text)).Whole := by
  intro queue hqueue c hc
  rw [← Option.some.inj hqueue, String.toList_append] at hc
  have hlast : ("\n" : String).toList = ['\n'] := rfl
  rw [hlast, List.getLast?_append, List.getLast?_singleton, Option.some_or] at hc
  exact (Option.some.inj hc).symm

theorem World.Cursor.append {first : ℤ} {world : World} (h : world.Cursor toFloat first)
    (text : String) : (world.step toFloat (.append text)).Cursor toFloat first := by
  have hlines := World.lines_append toFloat h.whole text
  refine ⟨⟨h.accounted.first_le, ?_, h.accounted.once⟩, World.whole_append world text, ?_, h.behind⟩
  · intro n hn hlt line hline hjob
    refine h.accounted.acted n hn hlt line ?_ hjob
    rw [hlines] at hline
    have hbefore : (n : ℤ) < readOffset world.offset := hlt
    rcases h.within with hfirst | hle
    · exact absurd hn (by omega)
    · have hold : n < world.lines.length := by omega
      rwa [List.getElem?_append_left hold] at hline
  · refine h.within.imp id fun hle ↦ hle.trans ?_
    rw [hlines, List.length_append]
    omega

theorem InOrder.range {start final : ℤ} {events : List Event} (h : InOrder start final events) :
    ∀ event ∈ events, start ≤ event.line ∧ (event.line : ℤ) < final := by
  intro event hevent
  obtain ⟨k, hk⟩ := List.mem_iff_getElem?.mp hevent
  have hlt := (List.getElem?_eq_some_iff.mp hk).1
  have hline := h.line k event hk
  have hlength := h.length
  omega

theorem InOrder.pairwise {start final : ℤ} {events : List Event} (h : InOrder start final events) :
    events.Pairwise fun earlier later ↦ earlier.line < later.line := by
  rw [List.pairwise_iff_getElem]
  intro i j hi hj hij
  have hfirst := h.line i _ (List.getElem?_eq_getElem hi)
  have hsecond := h.line j _ (List.getElem?_eq_getElem hj)
  omega

variable (toFloat) in
theorem World.queue_drain (world : World) (drain : Drain) :
    (world.drain toFloat drain).1.queue = world.queue := by
  rw [World.drain]
  split
  · rfl
  · split
    · rfl
    · rfl

/-- A drain adds its settled lines to the log, and perhaps the line where it stopped. -/
theorem World.Drained.exists_log {world : World} {drain : Drain} (h : world.Drained toFloat drain) :
    ∃ events stop, (world.drain toFloat drain).1.log = world.log ++ (events ++ stop) ∧
      (∀ event ∈ events, Settled toFloat world.lines event) ∧
      InOrder (readOffset world.offset) (readOffset (world.drain toFloat drain).1.offset) events ∧
      (∀ event ∈ stop, event.handling = .retry ∧
        (event.line : ℤ) = readOffset (world.drain toFloat drain).1.offset) ∧
      stop.length ≤ 1 ∧
      readOffset (world.drain toFloat drain).1.offset ≤ world.lines.length := by
  obtain ⟨events, hsettled, horder, ⟨hfinal, hlog⟩ | ⟨n, hfinal, hwaits, hlog⟩⟩ := h.settles
  · exact ⟨events, [], by rw [hlog, List.append_nil], hsettled, horder, by simp, by simp, hfinal.le⟩
  · have hlt := waitsAt_lt hwaits
    refine ⟨events, [⟨n, .retry⟩], by rw [hlog, List.append_assoc], hsettled, horder, ?_, by simp,
      by omega⟩
    intro event hevent
    rw [List.mem_singleton.mp hevent]
    exact ⟨rfl, hfinal.symm⟩

theorem World.Cursor.drain {first : ℤ} {world : World} (h : world.Cursor toFloat first)
    {drain : Drain} (hdrained : world.Drained toFloat drain) :
    (world.drain toFloat drain).1.Cursor toFloat first := by
  obtain ⟨events, stop, hlog, hsettled, horder, hstop, hone, hwithin⟩ := hdrained.exists_log
  have hgrows := hdrained.grows
  have hqueue := World.queue_drain toFloat world drain
  have hlines : (world.drain toFloat drain).1.lines = world.lines := by
    rw [World.lines, hqueue, World.lines]
  refine ⟨⟨h.accounted.first_le.trans hgrows, ?_, ?_⟩, ?_, Or.inr ?_, ?_⟩
  · intro n hn hlt text htext hjob
    rw [hlines] at htext
    rw [hlog]
    rcases lt_or_ge (n : ℤ) (readOffset world.offset) with hbefore | hafter
    · obtain ⟨event, hevent, hline, hacts⟩ := h.accounted.acted n hn hbefore text htext hjob
      exact ⟨event, List.mem_append_left _ hevent, hline, hacts⟩
    · have hlength := horder.length
      obtain ⟨k, hk⟩ : ∃ k : ℕ, (n : ℤ) = readOffset world.offset + k :=
        ⟨(n - readOffset world.offset).toNat, by omega⟩
      have hbound : k < events.length := by omega
      have hline := horder.line k _ (List.getElem?_eq_getElem hbound)
      have hsame : events[k].line = n := by omega
      obtain ⟨other, hother, hacts⟩ := (hsettled _ (List.getElem_mem hbound)).acts
      rw [hsame, htext] at hother
      rw [← Option.some.inj hother] at hacts
      exact ⟨events[k], List.mem_append_right _ (List.mem_append_left _ (List.getElem_mem hbound)),
        hsame, hacts.mpr hjob⟩
  · rw [hlog, List.pairwise_append, List.pairwise_append]
    refine ⟨h.accounted.once, ⟨List.Pairwise.imp ?_ horder.pairwise, ?_, ?_⟩, ?_⟩
    · exact fun hlt _ ↦ hlt
    · match stop, hone with
      | [], _ => exact List.Pairwise.nil
      | [event], _ => exact List.pairwise_singleton _ _
    · intro earlier hearlier later hlater _
      have hrange := horder.range earlier hearlier
      have hline := (hstop later hlater).2
      omega
    · intro earlier hearlier later hlater hne
      have hbehind := h.behind earlier hearlier hne
      rcases List.mem_append.mp hlater with hnew | hlast
      · have hrange := horder.range later hnew
        omega
      · have hline := (hstop later hlast).2
        omega
  · intro queue hsome
    rw [hqueue] at hsome
    exact h.whole queue hsome
  · rw [hlines]
    exact hwithin
  · intro event hevent hne
    rw [hlog] at hevent
    rcases List.mem_append.mp hevent with hold | hnew
    · exact (h.behind event hold hne).trans_le hgrows
    · rcases List.mem_append.mp hnew with hin | hlast
      · exact (horder.range event hin).2
      · exact absurd (hstop event hlast).1 hne

theorem run_append_singleton (offset : Option ℤ) (actions : List Action) (action : Action) :
    World.run toFloat offset (actions ++ [action]) =
      (World.run toFloat offset actions).step toFloat action :=
  List.foldl_append

theorem cursor_of_drained {offset : Option ℤ} {actions : List Action}
    (h : EachStep (fun before action ↦
      (World.run toFloat offset before).DrainedStep toFloat action) actions) :
    EachPoint (fun before ↦
      (World.run toFloat offset before).Cursor toFloat (readOffset offset)) actions := by
  refine eachPoint_of_eachStep ?_ ?_ h
  · refine ⟨⟨le_rfl, fun n hn hlt ↦ ?_, List.Pairwise.nil⟩, ?_, Or.inl rfl, ?_⟩
    · exact absurd hn (Int.not_le.mpr hlt)
    · intro queue hqueue
      cases hqueue
    · intro event hevent
      cases hevent
  · intro before action hbefore hstep
    rw [run_append_singleton]
    cases action with
    | append text => exact hbefore.append text
    | drain drain => exact hbefore.drain hstep

theorem run_whole (offset : Option ℤ) (actions : List Action) :
    (World.run toFloat offset actions).Whole := by
  induction actions using List.reverseRecOn with
  | nil =>
      intro queue hqueue
      cases hqueue
  | append_singleton actions action ih =>
      rw [run_append_singleton]
      cases action with
      | append text => exact World.whole_append _ text
      | drain drain =>
          intro queue hqueue
          rw [World.step, World.queue_drain] at hqueue
          exact ih queue hqueue

end World

/-! ## A number in the queue -/

theorem queueLines_number : queueLines "5\n" = ["5"] := by decide

theorem foreign_number : Foreign Json.str "5" := by
  refine ⟨by decide, .int 5, rfl, fun job hjob ↦ ?_⟩
  cases hjob

/-- A process without a command, whose board cannot be reached. -/
def offlineDrain : Drain := ⟨⟨"", [], fun _ h ↦ absurd h List.not_mem_nil⟩, fun _ ↦ none⟩

end AgenticSDLC.AgentConsumer
