import Mathlib.Data.List.Basic
import Mathlib.Data.List.Pairwise
import Mathlib.Order.Lattice

/-! Append-only logs whose entries are numbered from one, and readers that take them page
by page. Logs whose keys may leave gaps, and readers that keep an offset into them.
-/

namespace Distributed.Foundation

variable {Entry : Type} {number : Entry → Nat} {log grown : List Entry}

/-- Every entry carries its place in the log, counted from one. -/
def Numbered (number : Entry → Nat) (log : List Entry) : Prop :=
  ∀ index entry, log[index]? = some entry → number entry = index + 1

theorem Numbered.nil : Numbered number [] := by
  intro index entry h
  simp at h

theorem Numbered.append {entry : Entry} (h : Numbered number log)
    (hentry : number entry = log.length + 1)
    : Numbered number (log ++ [entry]) := by
  intro index other hother
  rw [List.getElem?_append] at hother
  split at hother
  · exact h index other hother
  · rename_i hindex
    obtain ⟨hlast, rfl⟩ := List.getElem?_eq_some_iff.mp hother
    have hzero : index - log.length = 0 := Nat.lt_one_iff.mp hlast
    simp only [hzero, List.getElem_cons_zero, hentry]
    omega

/-- The numbers read off in order are one, two, three and so on. -/
theorem numbered_iff : Numbered number log ↔ log.map number = List.range' 1 log.length := by
  constructor
  · intro h
    refine List.ext_getElem? fun index => ?_
    rw [List.getElem?_map]
    cases hentry : log[index]? with
    | none =>
        rw [List.getElem?_eq_none_iff] at hentry
        rw [List.getElem?_eq_none (by simpa using hentry), Option.map_none]
    | some entry =>
        have hindex := (List.getElem?_eq_some_iff.mp hentry).1
        rw [List.getElem?_range' hindex, Option.map_some, h index entry hentry]
        congr 1
        omega
  · intro h index entry hentry
    have hindex := (List.getElem?_eq_some_iff.mp hentry).1
    have hplace := congrArg (fun numbers : List Nat => numbers[index]?) h
    simp only [List.getElem?_map, hentry, Option.map_some, List.getElem?_range' hindex,
      Option.some.injEq] at hplace
    omega

/-- Entries that continue the numbering can be appended together. -/
theorem Numbered.append_all {entries : List Entry} (h : Numbered number log)
    (hentries : entries.map number = List.range' (log.length + 1) entries.length)
    : Numbered number (log ++ entries) := by
  rw [numbered_iff] at h ⊢
  rw [List.map_append, h, hentries, List.length_append, Nat.add_comm log.length 1,
    List.range'_append_1]

theorem Numbered.of_mem_drop {start : Nat} {entry : Entry} (h : Numbered number log)
    (hentry : entry ∈ log.drop start)
    : start < number entry ∧ number entry ≤ log.length := by
  obtain ⟨index, hindex⟩ := List.mem_iff_getElem?.mp hentry
  rw [List.getElem?_drop] at hindex
  have hbound := (List.getElem?_eq_some_iff.mp hindex).1
  rw [h _ entry hindex]
  omega

/-- An entry is determined by its number. -/
theorem Numbered.eq_of_number_eq {entry other : Entry} (h : Numbered number log)
    (hentry : entry ∈ log) (hother : other ∈ log) (heq : number entry = number other)
    : entry = other := by
  obtain ⟨index, hindex⟩ := List.mem_iff_getElem?.mp hentry
  obtain ⟨index', hindex'⟩ := List.mem_iff_getElem?.mp hother
  rw [h index entry hindex, h index' other hindex', Nat.succ_inj] at heq
  subst heq
  exact Option.some.inj (hindex.symm.trans hindex')

/-- Dropping the entries up to a number is dropping a beginning of the log. -/
theorem Numbered.filter_drop {start floor : Nat} (h : Numbered number log)
    (hfloor : start ≤ floor)
    : (log.drop start).filter (fun entry => floor < number entry) = log.drop floor := by
  have hsplit := List.take_append_drop (floor - start) (log.drop start)
  rw [List.drop_drop, Nat.add_sub_cancel' hfloor] at hsplit
  have hdropped : ((log.drop start).take (floor - start)).filter
      (fun entry => floor < number entry) = [] := by
    refine List.filter_eq_nil_iff.mpr fun entry hentry => ?_
    obtain ⟨index, hindex⟩ := List.mem_iff_getElem?.mp hentry
    rw [List.getElem?_take] at hindex
    split at hindex
    · rw [List.getElem?_drop] at hindex
      have hnumber := h _ entry hindex
      simp only [decide_eq_true_eq]
      omega
    · cases hindex
  have hkept : (log.drop floor).filter (fun entry => floor < number entry)
      = log.drop floor := by
    refine List.filter_eq_self.mpr fun entry hentry => ?_
    exact decide_eq_true (h.of_mem_drop hentry).1
  rw [← hsplit, List.filter_append, hdropped, hkept, List.nil_append]

/-- A reader that started after `start` entries received the ones that follow, in order and
without a gap. -/
def Received (log : List Entry) (start : Nat) (received : List Entry) : Prop :=
  received = (log.drop start).take received.length

theorem Received.nil (log : List Entry) (start : Nat) : Received log start [] := rfl

/-- The next page continues where the reader is. -/
theorem Received.page {start : Nat} {received : List Entry}
    (h : Received log start received) (limit : Nat)
    : Received log start (received ++ (log.drop (start + received.length)).take limit) := by
  have hall : received ++ (log.drop (start + received.length)).take limit
      = (log.drop start).take (received.length + limit) := by
    rw [List.take_add, ← h, List.drop_drop]
  rw [Received, hall, List.length_take, List.take_eq_take_min]

/-- Appending to the log leaves what a reader received as it is. -/
theorem Received.grow {start : Nat} {received : List Entry} (h : Received log start received)
    (hgrows : log <+: grown)
    : Received grown start received := by
  obtain ⟨rest, rfl⟩ := hgrows
  have hlength : received.length ≤ (log.drop start).length := by
    have hmin := congrArg List.length h
    rw [List.length_take] at hmin
    omega
  rw [Received, List.drop_append, List.take_append_of_le_length hlength]
  exact h

theorem Received.number_getLast {start : Nat} {received : List Entry} {last : Entry}
    (h : Received log start received) (hnumbered : Numbered number log)
    (hlast : received.getLast? = some last)
    : number last = start + received.length := by
  rw [List.getLast?_eq_getElem?] at hlast
  have hpos : received.length - 1 < received.length :=
    (List.getElem?_eq_some_iff.mp hlast).1
  have hplace := congrArg (fun entries : List Entry => entries[received.length - 1]?) h
  simp only [List.getElem?_take, if_pos hpos, List.getElem?_drop] at hplace
  rw [hnumbered _ last (hplace ▸ hlast)]
  omega

/-- Two members of a pairwise related list are related, in the order they stand in. -/
theorem pairwise_connected {R : Entry → Entry → Prop} (h : log.Pairwise R)
    {entry other : Entry} (hentry : entry ∈ log) (hother : other ∈ log)
    : entry = other ∨ R entry other ∨ R other entry := by
  have : Std.Symm (fun first second : Entry => R first second ∨ R second first) :=
    ⟨fun _ _ => Or.symm⟩
  have hsym : log.Pairwise (fun first second => R first second ∨ R second first) :=
    h.imp Or.inl
  by_cases hsame : entry = other
  · exact .inl hsame
  · exact .inr (hsym.forall hentry hother hsame)

section Keyed

variable {Key : Type} [LinearOrder Key] {key : Entry → Key} {entry : Entry}
  {offset : Key} {rest : List Entry}

/-- Keys go up along the log. -/
def Ascending (key : Entry → Key) (log : List Entry) : Prop :=
  log.Pairwise (fun first second => key first < key second)

/-- The entries past an offset. -/
def entriesPast (key : Entry → Key) (offset : Key) (log : List Entry) : List Entry :=
  log.filter (fun entry => offset < key entry)

theorem mem_entriesPast
    : entry ∈ entriesPast key offset log ↔ entry ∈ log ∧ offset < key entry := by
  simp [entriesPast]

theorem entriesPast_grows (hgrows : log <+: grown)
    : entriesPast key offset log <+: entriesPast key offset grown :=
  hgrows.filter _

theorem Ascending.first_le (h : Ascending key log)
    (hpast : entriesPast key offset log = entry :: rest) {other : Entry}
    (hother : other ∈ log) (hoffset : offset < key other)
    : key entry ≤ key other := by
  have hmem : other ∈ entry :: rest := hpast ▸ mem_entriesPast.mpr ⟨hother, hoffset⟩
  have hascending : Ascending key (entry :: rest) := hpast ▸ h.filter _
  rcases List.mem_cons.mp hmem with rfl | hrest
  · exact le_refl _
  · exact le_of_lt ((List.pairwise_cons.mp hascending).1 other hrest)

/-- The first entry past an offset stays in front of everything past that offset or a later
one, however the log grows. -/
theorem Ascending.first_le_of_grows (h : Ascending key grown) (hgrows : log <+: grown)
    (hpast : entriesPast key offset log = entry :: rest) {other : Entry}
    (hother : other ∈ grown) (hoffset : offset < key other)
    : key entry ≤ key other := by
  have hpastGrows : entriesPast key offset log <+: entriesPast key offset grown :=
    entriesPast_grows hgrows
  obtain ⟨added, hadded⟩ := hpast ▸ hpastGrows
  exact h.first_le hadded.symm hother hoffset

/-- An offset moved to the first entry past it leaves the entries after that one. -/
theorem Ascending.entriesPast_first (h : Ascending key log)
    (hpast : entriesPast key offset log = entry :: rest)
    : entriesPast key (key entry) log = rest := by
  have hfirst : offset < key entry := (mem_entriesPast.mp (hpast ▸ List.mem_cons_self)).2
  have hascending : Ascending key (entry :: rest) := hpast ▸ h.filter _
  have hnarrow : entriesPast key (key entry) log
      = entriesPast key (key entry) (entriesPast key offset log) := by
    rw [entriesPast, entriesPast, entriesPast, List.filter_filter]
    refine List.filter_congr fun other _ => ?_
    by_cases hlater : key entry < key other
    · simp [hlater, lt_trans hfirst hlater]
    · simp [hlater]
  have hkept : entriesPast key (key entry) rest = rest := by
    refine List.filter_eq_self.mpr fun other hother => decide_eq_true ?_
    exact (List.pairwise_cons.mp hascending).1 other hother
  rw [hnarrow, hpast, entriesPast, List.filter_cons_of_neg (by simp)]
  exact hkept

/-- In an ascending log an entry is known by its key. -/
theorem Ascending.eq_of_key_eq (h : Ascending key log) {other : Entry} (hentry : entry ∈ log)
    (hother : other ∈ log) (heq : key entry = key other)
    : entry = other := by
  rcases pairwise_connected h hentry hother with hsame | hless | hless
  · exact hsame
  · exact absurd heq (ne_of_lt hless)
  · exact absurd heq.symm (ne_of_lt hless)

end Keyed

end Distributed.Foundation
