import AgenticSDLC.Audit.AuditLog
import AgenticSDLC.Foundations.JsonReader

/-!
# The tip of an audit chain stands for all of its entries

If no two texts have one hash, an entry's hash determines its canonical row and its
`prev_hash`, since the row is a JSON text that ends by itself.  So two accepted
chains with one tip are one chain.
-/

namespace AgenticSDLC.AuditLog

open Python (Stdlib)
open HashChain (Linked tip)

/-! ## Canonical rows -/

/-- The row that is hashed, with its keys in order. -/
def AuditEntry.row (entry : AuditEntry) : Json :=
  .obj [("actor_agent", .str entry.actorAgent), ("created_at", .str entry.createdAt),
    ("decision", .str entry.decision), ("event_name", .str entry.eventName),
    ("reason", nullable entry.reason), ("requirement_id", nullable entry.requirementId),
    ("seq", .int entry.seq), ("tool_name", nullable entry.toolName)]

theorem sortKeys_nullable (text : Option String) : (nullable text).sortKeys = nullable text := by
  cases text <;> rfl

theorem plain_nullable (text : Option String) : (nullable text).Plain := by
  cases text <;> trivial

theorem nullable_injective : Function.Injective nullable := by
  intro text other h
  cases text <;> cases other <;> simp_all [nullable]

theorem plain_row (entry : AuditEntry) : entry.row.Plain := by
  simp [AuditEntry.row, Json.Plain, Json.PlainMembers, plain_nullable]

theorem toList_canonicalRow (py : Stdlib) (entry : AuditEntry) :
    (entry.canonicalRow py).toList = Json.asciiText py.repr entry.row := by
  simp [AuditEntry.canonicalRow, canonicalRow, Json.asciiDumps, AuditEntry.row, Python.sortedBy,
    List.insertionSort, List.orderedInsert, sortKeys_nullable]

theorem eq_of_row {entry other : AuditEntry} (hrow : entry.row = other.row)
    (hprev : entry.prevHash = other.prevHash) (hhash : entry.entryHash = other.entryHash) :
    entry = other := by
  simp only [AuditEntry.row, Json.obj.injEq, List.cons.injEq, Prod.mk.injEq, Json.str.injEq,
    Json.int.injEq, nullable_injective.eq_iff, true_and, and_true] at hrow
  obtain ⟨hactor, hcreated, hdecision, hevent, hreason, hrequirement, hseq, htool⟩ := hrow
  cases entry
  cases other
  simp_all

/-- Entries with the right hash are equal when their hashes are. -/
theorem eq_of_entryHash {py : Stdlib} (hsha : Function.Injective py.sha256)
    {entry other : AuditEntry} (hentry : entry.entryHash = entry.recomputed py)
    (hother : other.entryHash = other.recomputed py) (h : entry.entryHash = other.entryHash) :
    entry = other := by
  have htexts : entry.canonicalRow py ++ entry.prevHash = other.canonicalRow py ++ other.prevHash :=
    hsha (hentry.symm.trans (h.trans hother))
  have hlists : Json.asciiText py.repr entry.row ++ entry.prevHash.toList =
      Json.asciiText py.repr other.row ++ other.prevHash.toList := by
    have hlists := congrArg String.toList htexts
    rwa [String.toList_append, String.toList_append, toList_canonicalRow, toList_canonicalRow]
      at hlists
  have hparts := Json.asciiText_append_inj py.repr (plain_row entry) (plain_row other)
    (fun _ hrow ↦ by cases hrow) (fun _ hrow ↦ by cases hrow) hlists
  exact eq_of_row hparts.1 (String.toList_inj.mp hparts.2) h

/-! ## Chains -/

theorem Numbered.seq_getLast? {n : ℕ} {entries : List AuditEntry} (h : Numbered n entries)
    {last : AuditEntry} (hlast : entries.getLast? = some last) :
    last.seq + 1 = n + entries.length := by
  induction entries generalizing n with
  | nil => cases hlast
  | cons entry entries ih =>
      cases entries with
      | nil =>
          have hentry : entry = last := Option.some.inj hlast
          rw [← hentry, h.1]
          simp
      | cons next entries =>
          rw [List.getLast?_cons_cons] at hlast
          have hseq := ih h.2 hlast
          simp only [List.length_cons] at hseq ⊢
          omega

theorem sortedBySeq_perm (entries : List AuditEntry) : (sortedBySeq entries).Perm entries :=
  List.perm_insertionSort _ _

/-- The hash of the last entry by sequence number. -/
def lastHash (entries : List AuditEntry) : Option String :=
  (sortedBySeq entries).getLast?.map AuditEntry.entryHash

theorem sortedBySeq_eq_of_lastHash {py : Stdlib} (hsha : Function.Injective py.sha256)
    {entries others : List AuditEntry} (hentries : verifyChain py entries = true)
    (hothers : verifyChain py others = true) (hlast : lastHash entries = lastHash others) :
    sortedBySeq entries = sortedBySeq others := by
  obtain ⟨hnumbered, hlinked, hhashed⟩ := (verifyChain_eq_true_iff py).mp hentries
  obtain ⟨hnumbered', hlinked', hhashed'⟩ := (verifyChain_eq_true_iff py).mp hothers
  have hinj : ∀ entry ∈ sortedBySeq entries, ∀ other ∈ sortedBySeq others,
      entry.entryHash = other.entryHash → entry = other := fun entry hentry other hother ↦
    eq_of_entryHash hsha (hhashed entry hentry) (hhashed' other hother)
  cases hfirst : (sortedBySeq entries).getLast? with
  | none =>
      have hsecond : (sortedBySeq others).getLast? = none := by
        simpa [lastHash, hfirst, eq_comm] using hlast
      rw [List.getLast?_eq_none_iff.mp hfirst, List.getLast?_eq_none_iff.mp hsecond]
  | some entry =>
      cases hsecond : (sortedBySeq others).getLast? with
      | none => simp [lastHash, hfirst, hsecond] at hlast
      | some other =>
          have htips : entry.entryHash = other.entryHash := by
            simpa [lastHash, hfirst, hsecond] using hlast
          have hsame : entry = other :=
            hinj entry (List.mem_of_getLast? hfirst) other (List.mem_of_getLast? hsecond) htips
          have hlength : (sortedBySeq entries).length = (sortedBySeq others).length := by
            have hseq := hnumbered.seq_getLast? hfirst
            have hseq' := hnumbered'.seq_getLast? hsecond
            rw [hsame] at hseq
            omega
          refine HashChain.eq_of_tip_eq hinj hlength hlinked hlinked' fun _ ↦ ?_
          rw [HashChain.tip_of_getLast? hfirst, HashChain.tip_of_getLast? hsecond, htips]

/-- The tip commits to the history: accepted lists with one tip agree entry by entry,
and no other list of entries is accepted with the tip of an accepted one. -/
theorem tip_commits {py : Stdlib} (hsha : Function.Injective py.sha256)
    {entries : List AuditEntry} (hentries : verifyChain py entries = true) :
    (∀ others, verifyChain py others = true → lastHash others = lastHash entries →
        sortedBySeq others = sortedBySeq entries) ∧
      ∀ altered, ¬altered.Perm entries →
        verifyChain py altered = false ∨ lastHash altered ≠ lastHash entries := by
  have hcommits : ∀ others, verifyChain py others = true → lastHash others = lastHash entries →
      sortedBySeq others = sortedBySeq entries := fun others hothers hlast ↦
    sortedBySeq_eq_of_lastHash hsha hothers hentries hlast
  refine ⟨hcommits, fun altered haltered ↦ ?_⟩
  by_contra hnot
  obtain ⟨haccepted, hlast⟩ := not_or.mp hnot
  have hsorted := hcommits altered (by simpa using haccepted) (not_not.mp hlast)
  have hperm := sortedBySeq_perm altered
  rw [hsorted] at hperm
  exact haltered (hperm.symm.trans (sortedBySeq_perm entries))

section Sample

/-- A hash that gives the entries their own hashes, and other texts back behind an x. -/
def tableSha256 (entries : List AuditEntry) (text : String) : String :=
  match entries.find? fun entry ↦
      String.ofList (Json.asciiText (fun _ ↦ "") entry.row) ++ entry.prevHash = text with
  | some entry => entry.entryHash
  | none => "x" ++ text

def tableStdlib (entries : List AuditEntry) : Stdlib := ⟨fun _ ↦ "", tableSha256 entries, fun _ ↦ none⟩

theorem tableSha256_ne {entries : List AuditEntry} {hash : String}
    (hentries : ∀ entry ∈ entries, entry.entryHash ≠ hash) (hmark : hash.toList.head? ≠ some 'x')
    (text : String) : (tableStdlib entries).sha256 text ≠ hash := by
  change tableSha256 entries text ≠ hash
  unfold tableSha256
  split
  · next entry hentry => exact hentries entry (List.mem_of_find?_eq_some hentry)
  · rintro rfl
    rw [String.toList_append] at hmark
    exact hmark rfl

theorem tableSha256_injective {entries : List AuditEntry}
    (hnodup : (entries.map AuditEntry.entryHash).Nodup)
    (hmark : ∀ entry ∈ entries, entry.entryHash.toList.head? ≠ some 'x') :
    Function.Injective (tableStdlib entries).sha256 := by
  have hmarked : ∀ entry ∈ entries, ∀ text, entry.entryHash ≠ "x" ++ text := by
    intro entry hentry text h
    apply hmark entry hentry
    rw [h, String.toList_append]
    rfl
  intro text other h
  change tableSha256 entries text = tableSha256 entries other at h
  unfold tableSha256 at h
  split at h
  · next entry hentry =>
      have hmem := List.mem_of_find?_eq_some hentry
      have htext := List.find?_some hentry
      simp only [decide_eq_true_eq] at htext
      split at h
      · next another hanother =>
          have hsame : entry = another := List.inj_on_of_nodup_map hnodup hmem
            (List.mem_of_find?_eq_some hanother) h
          have hother := List.find?_some hanother
          simp only [decide_eq_true_eq] at hother
          rw [← htext, hsame, hother]
      · exact absurd h (hmarked entry hmem other)
  · split at h
    · next another hanother =>
        exact absurd h.symm (hmarked another (List.mem_of_find?_eq_some hanother) text)
    · have hlists := congrArg String.toList h
      rw [String.toList_append, String.toList_append, List.append_cancel_left_eq] at hlists
      exact String.toList_inj.mp hlists

theorem tableStdlib_recomputed {entries : List AuditEntry}
    (hentries : ∀ entry ∈ entries, ∀ other ∈ entries, entry.row = other.row →
      entry.prevHash = other.prevHash → entry.entryHash = other.entryHash)
    {entry : AuditEntry} (hentry : entry ∈ entries) :
    entry.entryHash = entry.recomputed (tableStdlib entries) := by
  have htext : entry.canonicalRow (tableStdlib entries) ++ entry.prevHash =
      String.ofList (Json.asciiText (fun _ ↦ "") entry.row) ++ entry.prevHash := by
    rw [← String.toList_inj, String.toList_append, String.toList_append, toList_canonicalRow,
      String.toList_ofList]
    rfl
  change entry.entryHash = tableSha256 entries (entry.canonicalRow (tableStdlib entries) ++ _)
  rw [htext]
  unfold tableSha256
  split
  · next other hother =>
      have hfound := List.find?_some hother
      simp only [decide_eq_true_eq] at hfound
      have hlists := congrArg String.toList hfound
      rw [String.toList_append, String.toList_append, String.toList_ofList,
        String.toList_ofList] at hlists
      have hparts := Json.asciiText_append_inj _ (plain_row other) (plain_row entry)
        (fun _ hrow ↦ by cases hrow) (fun _ hrow ↦ by cases hrow) hlists
      exact (hentries other (List.mem_of_find?_eq_some hother) entry hentry hparts.1
        (String.toList_inj.mp hparts.2)).symm
  · next hnone =>
      have hmissing := List.find?_eq_none.mp hnone entry hentry
      simp at hmissing

def firstEntry : AuditEntry :=
  ⟨1, "dispatch", none, "allow", none, none, "dispatcher", "2026-01-05T09:00:00+00:00",
    genesisPrevHash, "27d402db9a6555abe63988f538544c305d12f2199f6a077b7aa6af160cec1abf"⟩

def secondEntry : AuditEntry :=
  ⟨2, "dispatch", none, "allow", some "retry", none, "dispatcher", "2026-01-05T09:00:01+00:00",
    firstEntry.entryHash, "522e7813a67d8d29d4b6d1bf8b574f48643bfa0ce9bf7d23a1d3f6382f4cd086"⟩

theorem tip_commits_sample :
    (∀ others, verifyChain (tableStdlib [firstEntry, secondEntry]) others = true →
        lastHash others = lastHash [firstEntry, secondEntry] →
          sortedBySeq others = sortedBySeq [firstEntry, secondEntry]) ∧
      ∀ altered, ¬altered.Perm [firstEntry, secondEntry] →
        verifyChain (tableStdlib [firstEntry, secondEntry]) altered = false ∨
          lastHash altered ≠ lastHash [firstEntry, secondEntry] := by
  have hsorted : sortedBySeq [firstEntry, secondEntry] = [firstEntry, secondEntry] := by
    simp [sortedBySeq, firstEntry, secondEntry]
  have hnodup : ([firstEntry, secondEntry].map AuditEntry.entryHash).Nodup := by
    simp [firstEntry, secondEntry]
  have hmark : ∀ entry ∈ [firstEntry, secondEntry],
      entry.entryHash.toList.head? ≠ some 'x' := by
    simp [firstEntry, secondEntry]
  apply tip_commits (tableSha256_injective hnodup hmark)
  rw [verifyChain_eq_true_iff, hsorted]
  refine ⟨⟨rfl, rfl, True.intro⟩, ⟨rfl, rfl, True.intro⟩, fun entry hentry ↦ ?_⟩
  refine tableStdlib_recomputed (fun one hone two htwo hrow _ ↦ ?_) hentry
  have hseq : one.seq = two.seq := by
    simp only [AuditEntry.row, Json.obj.injEq, List.cons.injEq, Prod.mk.injEq, Json.int.injEq]
      at hrow
    exact hrow.2.2.2.2.2.2.1.2
  have hdistinct : ∀ entry ∈ [firstEntry, secondEntry], ∀ other ∈ [firstEntry, secondEntry],
      entry.seq = other.seq → entry.entryHash = other.entryHash := by
    simp [firstEntry, secondEntry]
  exact hdistinct one hone two htwo hseq

end Sample

end AgenticSDLC.AuditLog
