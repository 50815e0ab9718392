import Mathlib.Data.List.Forall2
import Mathlib.Data.List.Infix

/-!
# Recording and replaying an asking program

A program asks commands one at a time and goes on with the replies.  A recorder
answers from a record of events as long as there is one, refuses a command the
next recorded event is not an answer to, and past the record answers live and
leaves an event.  The script of a program is all that this exchange amounts to;
the theorem to use is `Program.replay`: a program that is given back a part of
its own record, up to an equivalence it cannot see, makes the same record again.
-/

namespace Replay

inductive Program (C R A : Type) where
  | done (result : A)
  | ask (command : C) (next : R → Program C R A)

/-- How the commands `C` are answered by replies `R` over events `E`.  A rejected
command gets its reply without the record being looked at. -/
structure Recorder (C R E K : Type) where
  key : C → K
  reject : C → Option R
  accepts : E → C → Bool
  recalled : E → R
  refuse : C → E → R
  live : C → ℕ → E × R

inductive Answer where
  | replayed
  | refused
  | live
  deriving DecidableEq

/-- A command as it was asked: its key, its position in the record, its answer. -/
structure Entry (K : Type) where
  key : K
  position : ℕ
  answer : Answer
  deriving DecidableEq

/-- What comes of a program: the commands asked, the events added to the record,
the result, and the position it stops at. -/
structure Script (K E A : Type) where
  log : List (Entry K)
  events : List E
  result : A
  stop : ℕ

variable {C R E K A : Type}

def Script.after (script : Script K E A) (entry : Entry K) (added : List E) : Script K E A :=
  { script with log := entry :: script.log, events := added ++ script.events }

section After

variable (script : Script K E A) (entry : Entry K) (added : List E)

@[simp] theorem after_log : (script.after entry added).log = entry :: script.log := rfl

@[simp] theorem after_events : (script.after entry added).events = added ++ script.events := rfl

@[simp] theorem after_result : (script.after entry added).result = script.result := rfl

@[simp] theorem after_stop : (script.after entry added).stop = script.stop := rfl

end After

def Program.script (r : Recorder C R E K) : Program C R A → List E → ℕ → Script K E A
  | .done result, _, position => ⟨[], [], result, position⟩
  | .ask c next, record, position =>
      match r.reject c with
      | some reply => (next reply).script r record position
      | none =>
          match record with
          | e :: rest =>
              if r.accepts e c then
                ((next (r.recalled e)).script r rest (position + 1)).after
                  ⟨r.key c, position, .replayed⟩ []
              else
                ((next (r.refuse c e)).script r (e :: rest) position).after
                  ⟨r.key c, position, .refused⟩ []
          | [] =>
              ((next (r.live c position).2).script r [] (position + 1)).after
                ⟨r.key c, position, .live⟩ [(r.live c position).1]

section Script

variable {r : Recorder C R E K} {c : C} {next : R → Program C R A}

@[simp] theorem script_done (result : A) (record : List E) (position : ℕ) :
    (Program.done result : Program C R A).script r record position =
      ⟨[], [], result, position⟩ := rfl

theorem script_reject {reply : R} (h : r.reject c = some reply) (record : List E)
    (position : ℕ) :
    (Program.ask c next).script r record position = (next reply).script r record position := by
  cases record <;> simp [Program.script, h]

theorem script_replayed (h : r.reject c = none) {e : E} (he : r.accepts e c = true)
    (rest : List E) (position : ℕ) :
    (Program.ask c next).script r (e :: rest) position =
      ((next (r.recalled e)).script r rest (position + 1)).after
        ⟨r.key c, position, .replayed⟩ [] := by
  simp [Program.script, h, he]

theorem script_refused (h : r.reject c = none) {e : E} (he : r.accepts e c = false)
    (rest : List E) (position : ℕ) :
    (Program.ask c next).script r (e :: rest) position =
      ((next (r.refuse c e)).script r (e :: rest) position).after
        ⟨r.key c, position, .refused⟩ [] := by
  simp [Program.script, h, he]

theorem script_live (h : r.reject c = none) (position : ℕ) :
    (Program.ask c next).script r [] position =
      ((next (r.live c position).2).script r [] (position + 1)).after
        ⟨r.key c, position, .live⟩ [(r.live c position).1] := by
  simp [Program.script, h]

end Script

/-- Induction over a script, one case for each way a command is answered. -/
theorem Program.script_induction {r : Recorder C R E K}
    {M : List E → ℕ → Script K E A → Prop}
    (hdone : ∀ result record n, M record n ⟨[], [], result, n⟩)
    (hreplayed : ∀ c e rest n s, r.accepts e c = true → M rest (n + 1) s →
      M (e :: rest) n (s.after ⟨r.key c, n, .replayed⟩ []))
    (hrefused : ∀ c e rest n s, r.accepts e c = false → M (e :: rest) n s →
      M (e :: rest) n (s.after ⟨r.key c, n, .refused⟩ []))
    (hlive : ∀ c n s, M [] (n + 1) s →
      M [] n (s.after ⟨r.key c, n, .live⟩ [(r.live c n).1]))
    (program : Program C R A) :
    ∀ (record : List E) (position : ℕ), M record position (program.script r record position) := by
  induction program with
  | done result => exact hdone result
  | ask c next ih =>
      intro record position
      cases hreject : r.reject c with
      | some reply =>
          rw [script_reject hreject]
          exact ih reply record position
      | none =>
          cases record with
          | nil =>
              rw [script_live hreject]
              exact hlive c position _ (ih _ _ _)
          | cons e rest =>
              cases haccepts : r.accepts e c with
              | true =>
                  rw [script_replayed hreject haccepts]
                  exact hreplayed c e rest position _ haccepts (ih _ _ _)
              | false =>
                  rw [script_refused hreject haccepts]
                  exact hrefused c e rest position _ haccepts (ih _ _ _)

/-- The rule for what holds of every entry of a log: an invariant of the record
left and the position, kept by each answer, under which each entry meets `P`. -/
theorem Program.forall_log {r : Recorder C R E K} {I : List E → ℕ → Prop}
    {P : Entry K → Prop}
    (hreplayed : ∀ c e rest n, I (e :: rest) n → r.accepts e c = true →
      P ⟨r.key c, n, .replayed⟩ ∧ I rest (n + 1))
    (hrefused : ∀ c e rest n, I (e :: rest) n → r.accepts e c = false →
      P ⟨r.key c, n, .refused⟩)
    (hlive : ∀ c n, I [] n → P ⟨r.key c, n, .live⟩ ∧ I [] (n + 1))
    (program : Program C R A) :
    ∀ (record : List E) (position : ℕ), I record position →
      ∀ entry ∈ (program.script r record position).log, P entry := by
  apply Program.script_induction (M := fun record n s ↦ I record n → ∀ entry ∈ s.log, P entry)
  · simp
  · intro c e rest n s haccepts ih hI
    obtain ⟨hP, hnext⟩ := hreplayed c e rest n hI haccepts
    exact List.forall_mem_cons.mpr ⟨hP, ih hnext⟩
  · intro c e rest n s haccepts ih hI
    exact List.forall_mem_cons.mpr ⟨hrefused c e rest n hI haccepts, ih hI⟩
  · intro c n s ih hI
    obtain ⟨hP, hnext⟩ := hlive c n hI
    exact List.forall_mem_cons.mpr ⟨hP, ih hnext⟩

theorem Program.le_position (r : Recorder C R E K) (program : Program C R A) (record : List E)
    (position : ℕ) :
    ∀ entry ∈ (program.script r record position).log, position ≤ entry.position := by
  apply Program.forall_log (I := fun _ n ↦ position ≤ n)
    (P := fun entry ↦ position ≤ entry.position)
  · exact fun c e rest n hn _ ↦ ⟨hn, hn.trans (Nat.le_succ n)⟩
  · exact fun c e rest n hn _ ↦ hn
  · exact fun c n hn ↦ ⟨hn, hn.trans (Nat.le_succ n)⟩
  · exact le_rfl

theorem Program.answer_of_nil (r : Recorder C R E K) (program : Program C R A) (position : ℕ) :
    ∀ entry ∈ (program.script r [] position).log, entry.answer = .live := by
  apply Program.forall_log (I := fun record _ ↦ record = [])
    (P := fun entry ↦ entry.answer = .live)
  · exact fun c e rest n hnil _ ↦ absurd hnil (List.cons_ne_nil e rest)
  · exact fun c e rest n hnil _ ↦ absurd hnil (List.cons_ne_nil e rest)
  · exact fun c n hnil ↦ ⟨rfl, hnil⟩
  · rfl

theorem Program.exists_of_mem_events {r : Recorder C R E K} (program : Program C R A) :
    ∀ (record : List E) (position : ℕ), ∀ e ∈ (program.script r record position).events,
      ∃ c n, e = (r.live c n).1 := by
  apply Program.script_induction (M := fun _ _ s ↦ ∀ e ∈ s.events, ∃ c n, e = (r.live c n).1)
  · simp
  · exact fun c e rest n s _ ih ↦ ih
  · exact fun c e rest n s _ ih ↦ ih
  · exact fun c n s ih ↦ List.forall_mem_cons.mpr ⟨⟨c, n, rfl⟩, ih⟩

theorem Program.length_events_le (r : Recorder C R E K) (program : Program C R A) :
    ∀ (record : List E) (position : ℕ),
      (program.script r record position).events.length ≤
        (program.script r record position).log.length := by
  apply Program.script_induction (M := fun _ _ s ↦ s.events.length ≤ s.log.length)
  · simp
  · exact fun c e rest n s _ ih ↦ ih.trans (Nat.le_succ _)
  · exact fun c e rest n s _ ih ↦ ih.trans (Nat.le_succ _)
  · exact fun c n s ih ↦ Nat.succ_le_succ ih

/-- The events are those of live commands, one position after another past the record. -/
theorem Program.exists_of_getElem?_events {r : Recorder C R E K} (program : Program C R A) :
    ∀ (record : List E) (position : ℕ), ∀ i e,
      (program.script r record position).events[i]? = some e →
        ∃ c, e = (r.live c (position + record.length + i)).1 := by
  apply Program.script_induction (M := fun record n s ↦ ∀ i e, s.events[i]? = some e →
    ∃ c, e = (r.live c (n + record.length + i)).1)
  · intro result record n i e he
    cases he
  · intro c e rest n s _ ih i event hevent
    have hlength : n + (e :: rest).length + i = n + 1 + rest.length + i := by
      rw [List.length_cons]
      omega
    rw [hlength]
    exact ih i event hevent
  · exact fun c e rest n s _ ih ↦ ih
  · intro c n s ih i event hevent
    cases i with
    | zero => exact ⟨c, (Option.some.inj hevent).symm⟩
    | succ i =>
        have hposition : n + ([] : List E).length + (i + 1) = n + 1 + ([] : List E).length + i := by
          rw [List.length_nil]
          omega
        rw [hposition]
        exact ih i event hevent

/-! ## Programs that cannot tell equivalent replies apart -/

structure Equivalences (C R A E : Type) where
  command : C → C → Prop
  reply : R → R → Prop
  result : A → A → Prop
  event : E → E → Prop

/-- The two programs ask equivalent commands and end in equivalent results,
whatever equivalent replies they are given. -/
inductive Program.Alike (q : Equivalences C R A E) : Program C R A → Program C R A → Prop where
  | done {a a' : A} (h : q.result a a') : Alike q (.done a) (.done a')
  | ask {c c' : C} {next next' : R → Program C R A} (hc : q.command c c')
      (hnext : ∀ reply reply', q.reply reply reply' → Alike q (next reply) (next' reply')) :
      Alike q (.ask c next) (.ask c' next')

/-- The recorder keeps the equivalences: it cannot tell equivalent commands and
events apart either. -/
structure Recorder.Respects (r : Recorder C R E K) (q : Equivalences C R A E) : Prop where
  reject : ∀ {c c'}, q.command c c' → ∀ reply, r.reject c = some reply →
    ∃ reply', r.reject c' = some reply' ∧ q.reply reply reply'
  unrejected : ∀ {c c'}, q.command c c' → r.reject c = none → r.reject c' = none
  accepts : ∀ {c c' e e'}, q.command c c' → q.event e e' → r.accepts e c = r.accepts e' c'
  recalled : ∀ {e e'}, q.event e e' → q.reply (r.recalled e) (r.recalled e')
  live : ∀ {c c'} n, q.command c c' →
    q.event (r.live c n).1 (r.live c' n).1 ∧ q.reply (r.live c n).2 (r.live c' n).2

section Replay

variable {r : Recorder C R E K} {q : Equivalences C R A E} {program program' : Program C R A}

theorem Program.Alike.live (hr : r.Respects q) (h : program.Alike q program') :
    ∀ position, q.result (program.script r [] position).result
        (program'.script r [] position).result ∧
      List.Forall₂ q.event (program.script r [] position).events
        (program'.script r [] position).events := by
  induction h with
  | done h => exact fun _ ↦ ⟨h, .nil⟩
  | ask hc _ ih =>
      intro position
      rename_i c c' next next' _
      cases hreject : r.reject c with
      | some reply =>
          obtain ⟨reply', hreject', hreply⟩ := hr.reject hc reply hreject
          rw [script_reject hreject, script_reject hreject']
          exact ih reply reply' hreply position
      | none =>
          obtain ⟨hevent, hreply⟩ := hr.live position hc
          obtain ⟨hresult, hevents⟩ := ih _ _ hreply (position + 1)
          rw [script_live hreject, script_live (hr.unrejected hc hreject)]
          exact ⟨hresult, .cons hevent hevents⟩

/-- The event a command leaves answers it again, with an equivalent reply. -/
def Recorder.Repeats (r : Recorder C R E K) (q : Equivalences C R A E) (e : E) : Prop :=
  ∀ c n, (r.live c n).1 = e →
    r.accepts e c = true ∧ ∀ e', q.event e e' → q.reply (r.live c n).2 (r.recalled e')

/-- A program that has left `events` is replayed on a record equivalent to a part
`before` of them, or to all of them with anything `after`: it comes to the same
result and record, and answers nothing live that the record holds. -/
theorem Program.Alike.replay (hr : r.Respects q) (h : program.Alike q program') :
    ∀ (position : ℕ) (before record after : List E),
      before <+: (program.script r [] position).events →
      (∀ e ∈ (program.script r [] position).events, r.Repeats q e) →
      List.Forall₂ q.event before record →
      (after = [] ∨ before = (program.script r [] position).events) →
      q.result (program.script r [] position).result
          (program'.script r (record ++ after) position).result ∧
        List.Forall₂ q.event (program.script r [] position).events
          (record ++ (program'.script r (record ++ after) position).events) ∧
        ∀ entry ∈ (program'.script r (record ++ after) position).log,
          entry.answer ≠ .refused ∧ (entry.answer = .live →
            after = [] ∧ position + before.length ≤ entry.position) := by
  induction h with
  | done h =>
      intro position before record after hbefore _ hrecord _
      obtain rfl := List.prefix_nil.mp hbefore
      cases hrecord
      exact ⟨h, .nil, by simp⟩
  | ask hc hnext ih =>
      intro position before record after hbefore hrepeats hrecord hafter
      rename_i c c' next next'
      cases hreject : r.reject c with
      | some reply =>
          obtain ⟨reply', hreject', hreply⟩ := hr.reject hc reply hreject
          rw [script_reject hreject] at hbefore hrepeats hafter ⊢
          rw [script_reject hreject']
          exact ih reply reply' hreply position before record after hbefore hrepeats hrecord hafter
      | none =>
          cases hrecord with
          | nil =>
              -- The record is used up: both programs go on live.
              obtain rfl : after = [] := by
                refine hafter.resolve_right fun hall ↦ ?_
                rw [script_live hreject] at hall
                cases hall
              obtain ⟨hresult, hevents⟩ := (Program.Alike.ask hc hnext).live hr position
              refine ⟨hresult, hevents, fun entry hentry ↦ ⟨?_, fun _ ↦ ?_⟩⟩
              · rw [Program.answer_of_nil r _ _ entry hentry]
                simp
              · exact ⟨rfl, Program.le_position r _ _ _ entry hentry⟩
          | @cons e e' before record hevent htail =>
              rw [script_live hreject] at hbefore hrepeats hafter ⊢
              obtain ⟨rfl, hrest⟩ := List.cons_prefix_cons.mp hbefore
              obtain ⟨haccepts, hreply⟩ := hrepeats _ List.mem_cons_self c position rfl
              obtain ⟨hresult, hevents, hlog⟩ := ih _ _ (hreply e' hevent) (position + 1)
                before record after hrest (fun e he ↦ hrepeats e (List.mem_cons_of_mem _ he))
                htail (hafter.imp_right fun h ↦ (List.cons.inj h).2)
              rw [List.cons_append, script_replayed (hr.unrejected hc hreject)
                ((hr.accepts hc hevent).symm.trans haccepts)]
              refine ⟨hresult, .cons hevent hevents, fun entry hentry ↦ ?_⟩
              rcases List.mem_cons.mp hentry with rfl | hin
              · simp
              · obtain ⟨hrefused, hlive⟩ := hlog entry hin
                refine ⟨hrefused, fun h ↦ ?_⟩
                obtain ⟨hnil, hposition⟩ := hlive h
                refine ⟨hnil, ?_⟩
                rw [List.length_cons]
                omega

end Replay

/-! ## Records that stop every program -/

/-- The program, answered from the record alone, ends in a result that meets `P`. -/
def Program.EndsOn (r : Recorder C R E K) (P : A → Prop) : Program C R A → List E → Prop
  | .done result, _ => P result
  | .ask c next, record =>
      match r.reject c with
      | some reply => (next reply).EndsOn r P record
      | none =>
          match record with
          | e :: rest => r.accepts e c = true ∧ (next (r.recalled e)).EndsOn r P rest
          | [] => False

def Recorder.Blocks (r : Recorder C R E K) (e : E) : Prop :=
  ∀ c, r.accepts e c = false

/-- On a record with an event that answers no command, nothing is answered live,
and a program that is refused nothing has ended on the record alone. -/
theorem Program.endsOn_iff {r : Recorder C R E K} {P : A → Prop} (program : Program C R A) :
    ∀ (record : List E) (position : ℕ), (∃ e ∈ record, r.Blocks e) →
      (P (program.script r record position).result ∧
          (∀ entry ∈ (program.script r record position).log, entry.answer ≠ .refused) ↔
        program.EndsOn r P record) := by
  induction program with
  | done result => simp [Program.EndsOn]
  | ask c next ih =>
      intro record position hblocks
      cases hreject : r.reject c with
      | some reply =>
          rw [script_reject hreject, ih reply record position hblocks]
          cases record <;> simp [Program.EndsOn, hreject]
      | none =>
          cases record with
          | nil => simp at hblocks
          | cons e rest =>
              cases haccepts : r.accepts e c with
              | false =>
                  rw [script_refused hreject haccepts]
                  simp [Program.EndsOn, hreject, haccepts]
              | true =>
                  have hrest : ∃ e ∈ rest, r.Blocks e := by
                    obtain ⟨b, hb, hblock⟩ := hblocks
                    rcases List.mem_cons.mp hb with rfl | hb
                    · simp [hblock c] at haccepts
                    · exact ⟨b, hb, hblock⟩
                  have hnext := ih (r.recalled e) rest (position + 1) hrest
                  rw [script_replayed hreject haccepts]
                  simpa [Program.EndsOn, hreject, haccepts] using hnext

/-- A program whose live run left an event that answers no command does not end on
the record of that run. -/
theorem Program.Alike.not_endsOn {r : Recorder C R E K} {q : Equivalences C R A E}
    (hr : r.Respects q) {P : A → Prop} {program program' : Program C R A}
    (h : program.Alike q program') :
    ∀ (position : ℕ) (record : List E),
      List.Forall₂ q.event (program.script r [] position).events record →
      (∀ e ∈ (program.script r [] position).events, r.Blocks e ∨ r.Repeats q e) →
      (∃ e ∈ (program.script r [] position).events, r.Blocks e) →
      ¬program'.EndsOn r P record := by
  induction h with
  | done h => simp
  | ask hc hnext ih =>
      intro position record hrecord hevents hblocks hends
      rename_i c c' next next'
      cases hreject : r.reject c with
      | some reply =>
          obtain ⟨reply', hreject', hreply⟩ := hr.reject hc reply hreject
          rw [script_reject hreject] at hrecord hevents hblocks
          apply ih reply reply' hreply position record hrecord hevents hblocks
          cases record <;> simpa [Program.EndsOn, hreject'] using hends
      | none =>
          rw [script_live hreject] at hrecord hevents hblocks
          cases hrecord with
          | @cons _ e' _ rest hevent htail =>
              have hends' : r.accepts e' c' = true ∧ (next' (r.recalled e')).EndsOn r P rest := by
                simpa [Program.EndsOn, hr.unrejected hc hreject] using hends
              obtain ⟨haccepts', hends'⟩ := hends'
              have haccepts := (hr.accepts hc hevent).trans haccepts'
              rcases hevents _ List.mem_cons_self with hblock | hrepeat
              · simp [hblock c] at haccepts
              · obtain ⟨-, hreply⟩ := hrepeat c position rfl
                refine ih _ _ (hreply e' hevent) (position + 1) rest htail
                  (fun e he ↦ hevents e (List.mem_cons_of_mem _ he)) ?_ hends'
                obtain ⟨b, hb, hblock⟩ := hblocks
                rcases List.mem_cons.mp hb with rfl | hin
                · simp [hblock c] at haccepts
                · exact ⟨b, hin, hblock⟩

theorem Program.events_eq_nil_of_blocks {r : Recorder C R E K} (program : Program C R A) :
    ∀ (record : List E) (position : ℕ), (∃ e ∈ record, r.Blocks e) →
      (program.script r record position).events = [] := by
  apply Program.script_induction (M := fun record _ s ↦ (∃ e ∈ record, r.Blocks e) → s.events = [])
  · exact fun result record n _ ↦ rfl
  · rintro c e rest n s haccepts ih ⟨b, hb, hblock⟩
    rcases List.mem_cons.mp hb with rfl | hrest
    · rw [hblock c] at haccepts
      cases haccepts
    · exact ih ⟨b, hrest, hblock⟩
  · exact fun c e rest n s _ ih ↦ ih
  · rintro c n s - ⟨b, hb, -⟩
    cases hb

theorem Program.ne_live_of_blocks {r : Recorder C R E K} (program : Program C R A)
    (record : List E) (position : ℕ) (hblocks : ∃ e ∈ record, r.Blocks e) :
    ∀ entry ∈ (program.script r record position).log, entry.answer ≠ .live := by
  apply Program.forall_log (I := fun record _ ↦ ∃ e ∈ record, r.Blocks e)
    (P := fun entry ↦ entry.answer ≠ .live)
  · rintro c e rest n ⟨b, hb, hblock⟩ haccepts
    refine ⟨by simp, b, ?_, hblock⟩
    rcases List.mem_cons.mp hb with rfl | hrest
    · simp [hblock c] at haccepts
    · exact hrest
  · simp
  · rintro c n ⟨b, hb, -⟩
    simp at hb
  · exact hblocks

end Replay
