import AgenticSDLC.Foundations.Dict
import AgenticSDLC.Foundations.Patterns

/-!
# Requirement ids in a text

`tools/req_id_scan.py`: the ids are the matches of `\b[A-Z]+-[A-Z]+-[0-9]{3}\b`, first seen
first.  Which characters beyond these `\w` takes for letters is a parameter.
-/

namespace AgenticSDLC.ReqIdScan

open Patterns

def isCapital (c : Char) : Bool := 65 ≤ c.toNat && c.toNat ≤ 90

def isDecimal (c : Char) : Bool := 48 ≤ c.toNat && c.toNat ≤ 57

/-- The class `\w`. -/
structure WordClass where
  isWord : Char → Bool
  capital : ∀ c, isCapital c = true → isWord c = true
  decimal : ∀ c, isDecimal c = true → isWord c = true
  dash : isWord '-' = false

/-- The class under `re.ASCII`. -/
def WordClass.ascii : WordClass where
  isWord c := isCapital c || isDecimal c || (97 ≤ c.toNat && c.toNat ≤ 122) || c == '_'
  capital c h := by simp [h]
  decimal c h := by simp [h]
  dash := by decide

/-- The test `\b`. -/
def boundary (isWord : Char → Bool) (prev next : Option Char) : Bool :=
  prev.any isWord != next.any isWord

def reqIdPattern (isWord : Char → Bool) : List (Item Char) :=
  [.look (boundary isWord), .one isCapital, .many isCapital, .one (· == '-'), .one isCapital,
    .many isCapital, .one (· == '-'), .one isDecimal, .one isDecimal, .one isDecimal,
    .look (boundary isWord)]

def scanReqIds (w : WordClass) (text : String) : List String :=
  if text = "" then []
  else
    let matched := (findall (reqIdPattern w.isWord) text.toList).map String.ofList
    (Dict.ofFirst (matched.map fun m ↦ (m, ()))).map Prod.fst

/-! ## What is an id -/

structure Parts where
  area : List Char
  topic : List Char
  number : List Char
  area_ne : area ≠ []
  topic_ne : topic ≠ []
  area_capital : ∀ c ∈ area, isCapital c = true
  topic_capital : ∀ c ∈ topic, isCapital c = true
  number_decimal : ∀ c ∈ number, isDecimal c = true
  number_length : number.length = 3

def Parts.text (parts : Parts) : List Char :=
  parts.area ++ '-' :: (parts.topic ++ '-' :: parts.number)

/-- `[A-Z]+-[A-Z]+-[0-9]{3}`. -/
def IsReqId (id : List Char) : Prop := ∃ parts : Parts, id = parts.text

theorem not_capital_of_decimal {c : Char} (h : isDecimal c = true) : isCapital c = false := by
  simp only [isDecimal, isCapital, Bool.and_eq_true, decide_eq_true_eq] at h ⊢
  simp only [Bool.and_eq_false_iff, decide_eq_false_iff_not]
  omega

theorem not_capital_dash : isCapital '-' = false := by decide

theorem takeWhile_capitals {capitals : List Char} (h : ∀ c ∈ capitals, isCapital c = true)
    (rest : List Char) : (capitals ++ '-' :: rest).takeWhile isCapital = capitals := by
  rw [List.takeWhile_append_of_pos h, List.takeWhile_cons_of_neg (by simp [not_capital_dash]),
    List.append_nil]

/-- The capitals before a dash are all those that stand there. -/
theorem capitals_unique {as bs rest rest' : List Char} (has : ∀ c ∈ as, isCapital c = true)
    (hbs : ∀ c ∈ bs, isCapital c = true) (h : as ++ '-' :: rest = bs ++ '-' :: rest') :
    as = bs ∧ rest = rest' := by
  have hsame : as = bs := by
    calc
      as = (as ++ '-' :: rest).takeWhile isCapital := (takeWhile_capitals has rest).symm
      _ = (bs ++ '-' :: rest').takeWhile isCapital := by rw [h]
      _ = bs := takeWhile_capitals hbs rest'
  subst hsame
  exact ⟨rfl, (List.cons.inj (List.append_cancel_left h)).2⟩

theorem Parts.text_append_inj {parts others : Parts} {rest rest' : List Char}
    (h : parts.text ++ rest = others.text ++ rest') : parts.text = others.text := by
  simp only [Parts.text, List.append_assoc, List.cons_append] at h ⊢
  obtain ⟨harea, htail⟩ := capitals_unique parts.area_capital others.area_capital h
  obtain ⟨htopic, hnumber⟩ := capitals_unique parts.topic_capital others.topic_capital htail
  have hlength := parts.number_length.trans others.number_length.symm
  rw [harea, htopic, (List.append_inj hnumber hlength).1]

theorem Parts.exists_head (parts : Parts) :
    ∃ c more, parts.text = c :: more ∧ isCapital c = true := by
  cases harea : parts.area with
  | nil => exact absurd harea parts.area_ne
  | cons c area =>
      refine ⟨c, area ++ '-' :: (parts.topic ++ '-' :: parts.number), ?_, ?_⟩
      · rw [Parts.text, harea, List.cons_append]
      · exact parts.area_capital c (by rw [harea]; exact List.mem_cons_self)

/-! ## The matches -/

theorem boundary_eq_true_iff (isWord : Char → Bool) (prev next : Option Char) :
    boundary isWord prev next = true ↔ prev.any isWord ≠ next.any isWord := by
  simp [boundary]

/-- A match is an id with no letter on either side. -/
theorem generates_iff (w : WordClass) (prev : Option Char) (matched rest : List Char) :
    Generates (reqIdPattern w.isWord) prev matched rest ↔
      IsReqId matched ∧ prev.any w.isWord = false ∧ rest.head?.any w.isWord = false := by
  simp only [reqIdPattern, Generates, boundary_eq_true_iff, beq_iff_eq]
  constructor
  · rintro ⟨hleft, a, _, rfl, ha, area, _, rfl, harea, _, _, rfl, rfl, t, _, rfl, ht, topic, _, rfl,
      htopic, _, _, rfl, rfl, d₁, _, rfl, hd₁, d₂, _, rfl, hd₂, d₃, _, rfl, hd₃, hright, rfl⟩
    refine ⟨⟨⟨a :: area, t :: topic, [d₁, d₂, d₃], by simp, by simp, ?_, ?_, ?_, rfl⟩, ?_⟩, ?_, ?_⟩
    · intro c hc
      exact (List.mem_cons.mp hc).elim (fun heq ↦ heq ▸ ha) (harea c)
    · intro c hc
      exact (List.mem_cons.mp hc).elim (fun heq ↦ heq ▸ ht) (htopic c)
    · simp [hd₁, hd₂, hd₃]
    · simp [Parts.text]
    · simpa [w.capital a ha] using hleft
    · rw [← Bool.not_eq_true]
      intro hnext
      apply hright
      rw [List.nil_append, hnext, Option.any_some, w.decimal d₃ hd₃]
  · rintro ⟨⟨parts, rfl⟩, hleft, hright⟩
    obtain ⟨area, topic, number, harea, htopic, hareas, htopics, hnumber, hlength⟩ := parts
    obtain ⟨d₁, d₂, d₃, rfl⟩ := List.length_eq_three.mp hlength
    cases area with
    | nil => exact absurd rfl harea
    | cons a area =>
        cases topic with
        | nil => exact absurd rfl htopic
        | cons t topic =>
            have ha := hareas a List.mem_cons_self
            have hd₃ := hnumber d₃ (by simp)
            refine ⟨?_, a, _, rfl, ha, area, _, rfl,
              fun c hc ↦ hareas c (List.mem_cons_of_mem a hc), _, _, rfl, rfl, t, _, rfl,
              htopics t List.mem_cons_self, topic, _, rfl,
              fun c hc ↦ htopics c (List.mem_cons_of_mem t hc), _, _, rfl, rfl, d₁, _, rfl,
              hnumber d₁ (by simp), d₂, _, rfl, hnumber d₂ (by simp), d₃, _, rfl, hd₃, ?_, rfl⟩
            · simp [Parts.text, hleft, w.capital a ha]
            · simp [hright, w.decimal d₃ hd₃]

theorem any_lastOr_of_capital (w : WordClass) (prev : Option Char) (before : List Char)
    {capitals : List Char} (hne : capitals ≠ []) (h : ∀ c ∈ capitals, isCapital c = true) :
    (lastOr prev (before ++ capitals)).any w.isWord = true := by
  rw [lastOr_append, lastOr, List.getLast?_eq_some_getLast hne, Option.some_or, Option.any_some]
  exact w.capital _ (h _ (List.getLast_mem hne))

/-- An id that starts where a letter's run or a dash would have to come is none. -/
theorem Parts.no_id_at_number (parts others : Parts) (rest rest' : List Char) :
    others.text ++ rest' ≠ parts.topic ++ '-' :: (parts.number ++ rest) := by
  intro h
  rw [Parts.text, List.append_assoc] at h
  obtain ⟨-, htail⟩ := capitals_unique others.area_capital parts.topic_capital h
  obtain ⟨d₁, d₂, d₃, hnumber⟩ := List.length_eq_three.mp parts.number_length
  cases htopic : others.topic with
  | nil => exact others.topic_ne htopic
  | cons t topic =>
      have hcapital := others.topic_capital t (by simp [htopic])
      have hdecimal := parts.number_decimal d₁ (by simp [hnumber])
      simp only [htopic, hnumber, List.cons_append] at htail
      rw [(List.cons.inj htail).1, not_capital_of_decimal hdecimal] at hcapital
      exact absurd hcapital (by decide)

/-- No id starts inside another one. -/
theorem apart_reqIdPattern (w : WordClass) : Apart (reqIdPattern w.isWord) where
  unique := by
    intro prev matched rest matched' rest' h h' htext
    obtain ⟨⟨parts, rfl⟩, -⟩ := (generates_iff w prev matched rest).mp h
    obtain ⟨⟨others, rfl⟩, -⟩ := (generates_iff w prev matched' rest').mp h'
    exact Parts.text_append_inj htext
  inside := by
    intro prev before after rest matched rest' h hbefore hafter h' htext
    obtain ⟨⟨parts, hparts⟩, -⟩ := (generates_iff w prev _ rest).mp h
    obtain ⟨⟨others, rfl⟩, hletter, -⟩ := (generates_iff w _ matched rest').mp h'
    obtain ⟨c, more, hhead, hcapital⟩ := others.exists_head
    have hfirst : after.head? = some c := by
      cases after with
      | nil => exact absurd rfl hafter
      | cons d after =>
          rw [hhead] at htext
          exact congrArg some (List.cons.inj htext).1.symm
    have hstart : ∀ tail, after ≠ '-' :: tail := by
      rintro tail rfl
      obtain rfl : '-' = c := Option.some.inj hfirst
      exact absurd hcapital (by decide)
    rcases List.append_eq_append_iff.mp hparts with ⟨tail, harea, -⟩ | ⟨tail, rfl, htail⟩
    · -- the second id would start after a letter of the area
      have hword := any_lastOr_of_capital w prev [] hbefore fun c hc ↦
        parts.area_capital c (by rw [harea]; exact List.mem_append_left tail hc)
      rw [List.nil_append, hletter] at hword
      exact absurd hword (by decide)
    · cases tail with
      | nil => exact hstart _ htail.symm
      | cons dash tail =>
          obtain ⟨rfl, hrest⟩ := List.cons.inj htail
          rcases List.append_eq_append_iff.mp hrest.symm with ⟨gap, htopic, hgap⟩ | ⟨gap, -, hgap⟩
          · cases tail with
            | nil =>
                apply parts.no_id_at_number others rest rest'
                rw [htext, hgap, htopic]
                simp
            | cons t tail =>
                have hword := any_lastOr_of_capital w prev (parts.area ++ ['-'])
                  (List.cons_ne_nil t tail) fun c hc ↦
                    parts.topic_capital c (by rw [htopic]; exact List.mem_append_left gap hc)
                rw [List.append_assoc, List.singleton_append, hletter] at hword
                exact absurd hword (by decide)
          · have hmem : c ∈ '-' :: parts.number := by
              rw [hgap]
              exact List.mem_append_right gap (List.mem_of_mem_head? hfirst)
            rcases List.mem_cons.mp hmem with rfl | hnumber
            · exact absurd hcapital (by decide)
            · rw [not_capital_of_decimal (parts.number_decimal c hnumber)] at hcapital
              exact absurd hcapital (by decide)

/-- The scan finds the ids that stand in the text with no letter on either side. -/
theorem mem_scanReqIds_iff (w : WordClass) (text id : String) :
    id ∈ scanReqIds w text ↔
      IsReqId id.toList ∧ ∃ before after, text.toList = before ++ id.toList ++ after ∧
        before.getLast?.any w.isWord = false ∧ after.head?.any w.isWord = false := by
  have hoccurs : Occurs (reqIdPattern w.isWord) none text.toList id.toList ↔
      IsReqId id.toList ∧ ∃ before after, text.toList = before ++ id.toList ++ after ∧
        before.getLast?.any w.isWord = false ∧ after.head?.any w.isWord = false := by
    simp only [Occurs, generates_iff, lastOr, Option.or_none]
    grind
  have hne : IsReqId id.toList → id.toList ≠ [] := by
    rintro ⟨parts, hparts⟩ hnil
    obtain ⟨c, more, hhead, -⟩ := parts.exists_head
    rw [hparts, hhead] at hnil
    exact List.cons_ne_nil _ _ hnil
  rw [scanReqIds]
  split_ifs with hempty
  · constructor
    · exact fun h ↦ absurd h List.not_mem_nil
    · rintro ⟨hid, before, after, htext, -⟩
      rw [hempty] at htext
      simp [hne hid] at htext
  · rw [Dict.mem_keys_ofFirst, List.map_map, ← hoccurs]
    simp only [List.mem_map, Function.comp_apply, (apart_reqIdPattern w).mem_findall_iff]
    constructor
    · rintro ⟨_, ⟨_, ⟨-, h⟩, rfl⟩, rfl⟩
      rwa [String.toList_ofList]
    · intro h
      exact ⟨id, ⟨id.toList, ⟨hne (hoccurs.mp h).1, h⟩, String.ofList_toList⟩, rfl⟩

/-! ## The whole list -/

/-- An id stands at a place of the text, with a word boundary at each of its ends. -/
def StandsAt (w : WordClass) (text id : String) (place : ℕ) : Prop :=
  IsReqId id.toList ∧ ∃ before after, text.toList = before ++ id.toList ++ after ∧
    before.length = place ∧ boundary w.isWord before.getLast? id.toList.head? = true ∧
    boundary w.isWord id.toList.getLast? after.head? = true

theorem Parts.any_head? (w : WordClass) (parts : Parts) :
    parts.text.head?.any w.isWord = true := by
  obtain ⟨c, more, hhead, hcapital⟩ := parts.exists_head
  rw [hhead, List.head?_cons, Option.any_some]
  exact w.capital c hcapital

theorem Parts.any_getLast? (w : WordClass) (parts : Parts) :
    parts.text.getLast?.any w.isWord = true := by
  obtain ⟨d₁, d₂, d₃, hnumber⟩ := List.length_eq_three.mp parts.number_length
  have hlast : parts.text = parts.area ++ '-' :: (parts.topic ++ ['-', d₁, d₂]) ++ [d₃] := by
    simp [Parts.text, hnumber]
  rw [hlast, List.getLast?_concat, Option.any_some]
  exact w.decimal d₃ (parts.number_decimal d₃ (by simp [hnumber]))

theorem standsAt_iff (w : WordClass) (text id : String) (place : ℕ) :
    StandsAt w text id place ↔ (place, id.toList) ∈ finditer (reqIdPattern w.isWord) text.toList := by
  have hgen : ∀ before after : List Char, IsReqId id.toList →
      (Generates (reqIdPattern w.isWord) (lastOr none before) id.toList after ↔
        boundary w.isWord before.getLast? id.toList.head? = true ∧
          boundary w.isWord id.toList.getLast? after.head? = true) := by
    rintro before after ⟨parts, hparts⟩
    rw [generates_iff, hparts, boundary_eq_true_iff, boundary_eq_true_iff, parts.any_head?,
      parts.any_getLast?, lastOr, Option.or_none]
    simp only [ne_eq, Bool.not_eq_true, eq_comm (a := true)]
    exact and_iff_right ⟨parts, rfl⟩
  rw [(apart_reqIdPattern w).mem_finditer_iff]
  constructor
  · rintro ⟨hid, before, after, htext, hplace, hbounds⟩
    refine ⟨?_, before, after, htext, hplace, (hgen before after hid).mpr hbounds⟩
    obtain ⟨parts, hparts⟩ := hid
    obtain ⟨c, more, hhead, -⟩ := parts.exists_head
    rw [hparts, hhead]
    exact List.cons_ne_nil c more
  · rintro ⟨-, before, after, htext, hplace, hmatch⟩
    have hid := ((generates_iff w _ _ after).mp hmatch).1
    exact ⟨hid, before, after, htext, hplace, (hgen before after hid).mp hmatch⟩

theorem scanReqIds_eq (w : WordClass) (text : String) :
    scanReqIds w text = (Dict.ofFirst ((finditer (reqIdPattern w.isWord) text.toList).map
      fun m ↦ (String.ofList m.2, ()))).map Prod.fst := by
  rw [scanReqIds, ← map_finditer]
  simp only [List.map_map]
  split_ifs with hempty
  · rw [hempty]
    rfl
  · rfl

/-- The scan returns the ids that stand in the text, each once and in the order in which they
stand there first. -/
theorem scanReqIds_exact (w : WordClass) (text : String) :
    (∀ id, id ∈ scanReqIds w text ↔ ∃ place, StandsAt w text id place) ∧
    (scanReqIds w text).Nodup ∧
    (scanReqIds w text).Pairwise fun id later ↦
      ∃ place, StandsAt w text id place ∧ ∀ other, StandsAt w text later other → place < other := by
  rw [scanReqIds_eq]
  refine ⟨fun id ↦ ?_, Dict.nodup_ofFirst _, (Dict.pairwise_ofFirst _).imp ?_⟩
  · rw [Dict.mem_keys_ofFirst, List.map_map]
    simp only [List.mem_map, Function.comp_apply, Prod.exists, standsAt_iff]
    constructor
    · rintro ⟨place, matched, hmem, rfl⟩
      exact ⟨place, by rwa [String.toList_ofList]⟩
    · rintro ⟨place, hmem⟩
      exact ⟨place, id.toList, hmem, String.ofList_toList⟩
  · rintro id later ⟨front, back, hsplit, hid, hlater⟩
    rw [List.map_map, List.map_eq_append_iff] at hsplit
    -- the matches up to the first one of `later`
    obtain ⟨found, others, hfinditer, rfl, hothers⟩ := hsplit
    obtain ⟨first, rest, rfl, hfirst, -⟩ := List.map_eq_cons_iff.mp hothers
    obtain ⟨m, hm, rfl⟩ := List.mem_map.mp hid
    have horder : (finditer (reqIdPattern w.isWord) text.toList).Pairwise
        fun m later ↦ m.1 < later.1 := pairwise_located _ none text.toList 0
    rw [hfinditer, List.pairwise_append, List.pairwise_cons] at horder
    obtain ⟨-, ⟨hrest, -⟩, hfront⟩ := horder
    have hplace := hfront m hm first List.mem_cons_self
    refine ⟨m.1, ?_, fun other hother ↦ ?_⟩
    · rw [standsAt_iff, hfinditer]
      exact List.mem_append_left _ (by simpa using hm)
    · rw [standsAt_iff, hfinditer] at hother
      rcases List.mem_append.mp hother with hbefore | hafter
      · exact absurd (List.mem_map.mpr ⟨_, hbefore, by simp⟩) hlater
      · rcases List.mem_cons.mp hafter with rfl | hafter
        · exact hplace
        · exact hplace.trans (hrest _ hafter)

/-- The failed attempt at `A` does not take the id with it. -/
example : scanReqIds .ascii "A-B-C-001" = ["B-C-001"] := by decide +kernel

end AgenticSDLC.ReqIdScan
