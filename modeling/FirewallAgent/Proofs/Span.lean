import FirewallAgent.Span.Text
import FirewallAgent.Proofs.Text.Numeral

/-! Lengths of time read back from their texts. A text counts units, largest first, and leaves out what
there is none of; reading adds the counts up again, and nothing on the way outgrows its place. -/
namespace FirewallAgent.Span
open FirewallAgent.Text

def total (s : Span) : Nat := s.seconds.toNat * 1000000000 + s.nanos.val

theorem sameTotal {s t : Span} (same : s.total = t.total) : s = t := by
  obtain ⟨seconds, nanos⟩ := s
  obtain ⟨seconds', nanos'⟩ := t
  have low := nanos.isLt
  have low' := nanos'.isLt
  unfold total at same
  dsimp only at same
  have whole : seconds.toNat = seconds'.toNat := by omega
  have part : nanos.val = nanos'.val := by omega
  rw [UInt64.toNat_inj.mp whole, Fin.ext part]

structure Item where
  count : Nat
  unit : TimeUnit
  name : String

namespace Item

def chars (i : Item) : List Char := Numeral.write 10 i.count ++ i.name.toList

def part (i : Item) : Part := ⟨i.count, none, i.unit⟩

def weight (i : Item) : Nat :=
  match i.unit.seconds? with
  | some n => i.count * n * 1000000000
  | none => i.count * i.unit.nanos

structure Fits (i : Item) : Prop where
  named : i.name ∈ i.unit.names
  small : i.count < word
  whole : ∀ n, i.unit.seconds? = some n → i.count * n < word
  few : i.unit.seconds? = none → i.count < 1000

end Item

def pluralOf (n : Nat) (name : String) : String := if n > 1 then name ++ "s" else name

def secondCounts (n : Nat) : List Item :=
  [⟨n / 31557600, .year, pluralOf (n / 31557600) "year"⟩,
    ⟨n % 31557600 / 2630016, .month, pluralOf (n % 31557600 / 2630016) "month"⟩,
    ⟨n % 31557600 % 2630016 / 86400, .day, pluralOf (n % 31557600 % 2630016 / 86400) "day"⟩,
    ⟨n % 31557600 % 2630016 % 86400 / 3600, .hour, "h"⟩,
    ⟨n % 31557600 % 2630016 % 86400 % 3600 / 60, .minute, "m"⟩,
    ⟨n % 31557600 % 2630016 % 86400 % 60, .second, "s"⟩]

def nanoCounts (n : Nat) : List Item :=
  [⟨n / 1000000, .millisecond, "ms"⟩, ⟨n / 1000 % 1000, .microsecond, "us"⟩, ⟨n % 1000, .nanosecond, "ns"⟩]

def counts (s : Span) : List Item := secondCounts s.seconds.toNat ++ nanoCounts s.nanos.val

def listed (s : Span) : List Item := s.counts.filter fun i => i.count != 0

theorem itemsListed (s : Span) : s.items = s.listed.map Item.chars := by
  have apart (is : List Item) : (is.filter fun i => i.count != 0).map Item.chars =
      is.flatMap fun i => counted i.count i.name := by
    induction is with
    | nil => rfl
    | cons i is ih =>
      by_cases none : i.count = 0
      · simpa [none, counted] using ih
      · simpa [none, counted, Item.chars] using ih
  rw [listed, apart]
  simp only [items, counts, secondCounts, nanoCounts, plural, pluralOf, List.cons_append, List.nil_append,
    List.flatMap_cons, List.flatMap_nil, List.append_assoc, List.append_nil]

theorem pluralNamed {n : Nat} {name : String} {u : TimeUnit} (one : name ∈ u.names)
    (many : name ++ "s" ∈ u.names) : pluralOf n name ∈ u.names := by
  unfold pluralOf
  split
  · exact many
  · exact one

theorem secondsFit {n unit : Nat} {u : TimeUnit} {name : String} (named : name ∈ u.names)
    (seconds : u.seconds? = some unit) (small : n < word) (whole : n * unit < word) :
    Item.Fits ⟨n, u, name⟩ where
  named := named
  small := small
  whole m same := by
    cases seconds.symm.trans same
    exact whole
  few same := by simp [seconds] at same

theorem nanosFit {n : Nat} {u : TimeUnit} {name : String} (named : name ∈ u.names)
    (below : u.seconds? = none) (few : n < 1000) : Item.Fits ⟨n, u, name⟩ where
  named := named
  small := Nat.lt_trans few (by decide)
  whole m same := by simp [below] at same
  few _ := few

theorem secondCountsFit {n : Nat} (bound : n < word) : ∀ i ∈ secondCounts n, i.Fits := by
  unfold word at bound
  intro i mem
  simp only [secondCounts, List.mem_cons, List.not_mem_nil, or_false] at mem
  rcases mem with rfl | rfl | rfl | rfl | rfl | rfl
  · exact secondsFit (pluralNamed (by decide) (by decide)) rfl (by unfold word; omega) (by unfold word; omega)
  · exact secondsFit (pluralNamed (by decide) (by decide)) rfl (by unfold word; omega) (by unfold word; omega)
  · exact secondsFit (pluralNamed (by decide) (by decide)) rfl (by unfold word; omega) (by unfold word; omega)
  · exact secondsFit (by decide) rfl (by unfold word; omega) (by unfold word; omega)
  · exact secondsFit (by decide) rfl (by unfold word; omega) (by unfold word; omega)
  · exact secondsFit (by decide) rfl (by unfold word; omega) (by unfold word; omega)

theorem nanoCountsFit {n : Nat} (low : n < 1000000000) : ∀ i ∈ nanoCounts n, i.Fits := by
  intro i mem
  simp only [nanoCounts, List.mem_cons, List.not_mem_nil, or_false] at mem
  rcases mem with rfl | rfl | rfl
  all_goals exact nanosFit (by decide) rfl (by omega)

theorem Item.weightSeconds {u : TimeUnit} {unit : Nat} (seconds : u.seconds? = some unit) (n : Nat)
    (name : String) : Item.weight ⟨n, u, name⟩ = n * unit * 1000000000 := by
  rw [weight, seconds]

theorem Item.weightNanos {u : TimeUnit} (below : u.seconds? = none) (n : Nat) (name : String) :
    Item.weight ⟨n, u, name⟩ = n * u.nanos := by
  rw [weight, below]

theorem secondsSplit (n : Nat) : n / 31557600 * 31557600 + n % 31557600 / 2630016 * 2630016 +
    n % 31557600 % 2630016 / 86400 * 86400 + n % 31557600 % 2630016 % 86400 / 3600 * 3600 +
    n % 31557600 % 2630016 % 86400 % 3600 / 60 * 60 + n % 31557600 % 2630016 % 86400 % 60 * 1 = n := by
  omega

def weights : List Item → Nat
  | [] => 0
  | i :: is => i.weight + weights is

theorem weightsAppend (is js : List Item) : weights (is ++ js) = weights is + weights js := by
  induction is with
  | nil => exact (Nat.zero_add _).symm
  | cons i is ih => rw [List.cons_append, weights, weights, ih, Nat.add_assoc]

theorem weightsOfSix (a b c d e f : Item) :
    weights [a, b, c, d, e, f] = a.weight + b.weight + c.weight + d.weight + e.weight + f.weight := by
  simp only [weights, Nat.add_zero, Nat.add_assoc]

theorem secondCountsTotal (n : Nat) : weights (secondCounts n) = n * 1000000000 := by
  rw [secondCounts, weightsOfSix, Item.weightSeconds rfl, Item.weightSeconds rfl, Item.weightSeconds rfl,
    Item.weightSeconds rfl, Item.weightSeconds rfl, Item.weightSeconds rfl]
  rw [← Nat.add_mul, ← Nat.add_mul, ← Nat.add_mul, ← Nat.add_mul, ← Nat.add_mul, secondsSplit]

theorem nanoCountsTotal (n : Nat) : weights (nanoCounts n) = n := by
  have split : n / 1000000 * 1000000 + (n / 1000 % 1000 * 1000 + n % 1000 * 1) = n := by omega
  simp only [nanoCounts, weights, Nat.add_zero]
  rw [Item.weightNanos rfl, Item.weightNanos rfl, Item.weightNanos rfl]
  exact split

theorem countsFit (s : Span) : ∀ i ∈ s.counts, i.Fits := by
  intro i mem
  rcases List.mem_append.mp mem with second | nano
  · exact secondCountsFit s.seconds.toNat_lt i second
  · exact nanoCountsFit s.nanos.isLt i nano

theorem countsTotal (s : Span) : weights s.counts = s.total := by
  rw [counts, weightsAppend, secondCountsTotal, nanoCountsTotal, total]

theorem listedFit (s : Span) : ∀ i ∈ s.listed, i.Fits :=
  fun i mem => s.countsFit i (List.mem_filter.mp mem).1

theorem Item.weightless {i : Item} (none : i.count = 0) : i.weight = 0 := by
  unfold weight
  split
  · rw [none, Nat.zero_mul, Nat.zero_mul]
  · rw [none, Nat.zero_mul]

theorem listedTotal (s : Span) : weights s.listed = s.total := by
  have kept (is : List Item) : weights (is.filter fun i => i.count != 0) = weights is := by
    induction is with
    | nil => rfl
    | cons i is ih =>
      by_cases none : i.count = 0
      · rw [List.filter_cons_of_neg (by simpa using none), ih, weights, Item.weightless none, Nat.zero_add]
      · rw [List.filter_cons_of_pos (by simpa using none), weights, ih, weights]
  rw [listed, kept, countsTotal]

section
variable {cs rest : List Char}

theorem digitsRead {ds : List Nat} {n : Nat} (spells : Numeral.Spells 10 cs ds)
    (fits : ds.foldl (fun v d => v * 10 + d) n < word) :
    parts (.whole n) (cs ++ rest) = parts (.whole (ds.foldl (fun v d => v * 10 + d) n)) rest := by
  induction ds generalizing cs n with
  | nil =>
    cases List.map_eq_nil_iff.mp spells
    rfl
  | cons d ds ih =>
    obtain ⟨c, cs, rfl, first, others⟩ := List.map_eq_cons_iff.mp spells
    have grows (ds : List Nat) (m : Nat) : m ≤ ds.foldl (fun v d => v * 10 + d) m := by
      induction ds generalizing m with
      | nil => exact Nat.le_refl m
      | cons d ds ih => exact Nat.le_trans (by omega) (ih (m * 10 + d))
    have below : n * 10 + d < word := Nat.lt_of_le_of_lt (grows ds _) fits
    simp only [List.cons_append, parts, first, push?, if_pos below]
    exact ih others fits

theorem countRead {n : Nat} (small : n < word) :
    parts .between (Numeral.write 10 n ++ rest) = parts (.whole n) rest := by
  obtain ⟨ds, spells, whole⟩ := Numeral.decimalSpells n
  obtain ⟨d, ds, rfl⟩ := spells.filled
  obtain ⟨c, cs, written, first, others⟩ := List.map_eq_cons_iff.mp spells
  have fold : ds.foldl (fun v d => v * 10 + d) d = n := by simpa [Numeral.value] using whole
  rw [written]
  simp only [List.cons_append, parts, first]
  rw [digitsRead others (by rwa [fold]), fold]

def isLetter (c : Char) : Bool :=
  isUnitChar c && !isBlank c && (Numeral.digit? 10 c).isNone

theorem lettersRead {n : Nat} {f : Option (Nat × Nat)} {name : List Char}
    (letters : cs.all isLetter = true) :
    parts (.unit n f name) (cs ++ rest) = parts (.unit n f (cs.reverse ++ name)) rest := by
  induction cs generalizing name with
  | nil => rfl
  | cons c cs ih =>
    simp only [List.all_cons, Bool.and_eq_true, isLetter, Bool.not_eq_true',
      Option.isNone_iff_eq_none] at letters
    obtain ⟨⟨⟨unit, solid⟩, digitless⟩, others⟩ := letters
    simp only [List.cons_append, parts, digitless, solid, unit, Bool.false_eq_true, if_false, if_true]
    rw [ih (by simpa [isLetter] using others), List.reverse_cons, List.append_assoc]
    rfl

end

theorem namesLetters (u : TimeUnit) :
    (u.names.all fun name => !name.toList.isEmpty && name.toList.all isLetter) = true := by
  cases u <;> decide

theorem Item.Fits.charsRead {i : Item} (fits : i.Fits) (rest : List Char) :
    parts .between (i.chars ++ rest) = parts (.unit i.count none i.name.toList.reverse) rest := by
  have letters := List.all_eq_true.mp (namesLetters i.unit) i.name fits.named
  rw [chars, List.append_assoc, countRead fits.small]
  cases name : i.name.toList with
  | nil => simp [name] at letters
  | cons c cs =>
    simp only [name, List.isEmpty_cons, Bool.not_false, Bool.true_and, List.all_cons,
      Bool.and_eq_true] at letters
    obtain ⟨first, others⟩ := letters
    simp only [isLetter, Bool.and_eq_true, Bool.not_eq_true', Option.isNone_iff_eq_none] at first
    obtain ⟨⟨unit, solid⟩, digitless⟩ := first
    simp only [List.cons_append, parts, digitless, solid, unit, Bool.false_eq_true, if_false, if_true]
    rw [lettersRead others, List.reverse_cons]

theorem Item.Fits.finished {i : Item} (fits : i.Fits) :
    finish? i.count none i.name.toList.reverse = some i.part := by
  rw [finish?, List.reverse_reverse, String.ofList_toList, TimeUnit.ofNameOfMem _ _ fits.named]
  rfl

theorem itemsRead {is : List Item} (fit : ∀ i ∈ is, i.Fits) :
    parts .between ([' '].intercalate (is.map Item.chars)) = some (is.map Item.part) := by
  induction is with
  | nil => rfl
  | cons i is ih =>
    have fits := fit i List.mem_cons_self
    have others := ih fun j mem => fit j (List.mem_cons_of_mem i mem)
    cases is with
    | nil =>
      have alone := fits.charsRead []
      rw [List.append_nil, parts, fits.finished] at alone
      simpa using alone
    | cons j is =>
      have gap : Numeral.digit? 10 ' ' = none ∧ isBlank ' ' = true := by decide
      rw [List.map_cons] at others
      rw [List.map_cons, List.map_cons, List.intercalate_cons_cons, List.append_assoc, fits.charsRead,
        List.singleton_append, parts, gap.1]
      simp only [gap.2, if_true, fits.finished, others, List.map_cons]

theorem secondsAmount {n unit : Nat} {u : TimeUnit} (seconds : u.seconds? = some unit)
    (whole : n * unit < word) : Part.amount? ⟨n, none, u⟩ = some (n * unit, 0) := by
  simp only [Part.amount?, seconds, if_pos whole]

theorem nanosAmount {n : Nat} {u : TimeUnit} (below : u.seconds? = none) (whole : n * u.nanos < word) :
    Part.amount? ⟨n, none, u⟩ = some (0, n * u.nanos) := by
  simp only [Part.amount?, below, if_pos whole]

theorem Item.Fits.amount {i : Item} (fits : i.Fits) :
    ∃ a, i.part.amount? = some a ∧ a.1 * 1000000000 + a.2 = i.weight ∧ a.2 < 1000000000 := by
  cases seconds : i.unit.seconds? with
  | some unit =>
    refine ⟨_, secondsAmount seconds (fits.whole unit seconds), ?_, Nat.zero_lt_succ _⟩
    rw [weight, seconds, Nat.add_zero]
  | none =>
    have few := fits.few seconds
    have least : i.unit.nanos ≤ 1000000 := by
      generalize i.unit = u at seconds
      cases u <;> first | decide | cases seconds
    have low : i.count * i.unit.nanos < 1000000000 :=
      Nat.lt_of_le_of_lt (Nat.mul_le_mul (Nat.le_of_lt_succ few) least) (by decide)
    refine ⟨_, nanosAmount seconds (Nat.lt_trans low (by decide)), ?_, low⟩
    rw [weight, seconds, Nat.zero_mul, Nat.zero_add]

theorem totalLow (s : Span) : s.total < word * 1000000000 := by
  have low := s.nanos.isLt
  have seconds : s.seconds.toNat < word := s.seconds.toNat_lt
  unfold total
  omega

theorem added {s : Span} {a : Nat × Nat} (low : a.2 < 1000000000)
    (fits : s.total + (a.1 * 1000000000 + a.2) < word * 1000000000) :
    ∃ t, add? s a = some t ∧ t.total = s.total + (a.1 * 1000000000 + a.2) := by
  have part := s.nanos.isLt
  unfold total at fits
  have seconds : s.seconds.toNat + a.1 + (s.nanos.val + a.2) / 1000000000 < word := by omega
  have nanos : s.nanos.val + a.2 < word := Nat.lt_trans (Nat.add_lt_add part low) (by decide)
  refine ⟨_, if_pos ⟨nanos, seconds⟩, ?_⟩
  have whole := UInt64.toNat_ofNat_of_lt' seconds
  unfold total
  rw [whole]
  dsimp only
  omega

theorem addedAll {is : List Item} (fit : ∀ i ∈ is, i.Fits) {s t : Span}
    (sum : s.total + weights is = t.total) : addAll? s (is.map Item.part) = some t := by
  induction is generalizing s with
  | nil =>
    rw [weights, Nat.add_zero] at sum
    cases sameTotal sum
    rfl
  | cons i is ih =>
    obtain ⟨a, amount, weight, low⟩ := (fit i List.mem_cons_self).amount
    rw [weights, ← weight, ← Nat.add_assoc] at sum
    have bound := t.totalLow
    obtain ⟨u, add, more⟩ := added low (s := s) (by omega)
    rw [List.map_cons, addAll?, amount, Option.bind_some, add]
    exact ih (fun j mem => fit j (List.mem_cons_of_mem i mem)) (by rw [more, sum])

theorem listedFirst {s : Span} (some : s.isZero = false) : ∃ i is, s.listed = i :: is := by
  apply List.exists_cons_of_ne_nil
  intro none
  have whole := s.listedTotal
  rw [none] at whole
  have zero : s = ofSeconds 0 := sameTotal whole.symm
  rw [zero] at some
  exact Bool.false_ne_true (some.symm.trans rfl)

theorem textReadBack (s : Span) : ofText? s.text = some s := by
  rw [ofText?, text, String.toList_ofList, toChars]
  split
  · rename_i zero
    have none : s = ofSeconds 0 := by
      obtain ⟨seconds, nanos⟩ := s
      simp only [isZero, Bool.and_eq_true, decide_eq_true_eq] at zero
      rw [zero.1, zero.2]
      rfl
    rw [none]
    rfl
  · rename_i some
    obtain ⟨i, is, listed⟩ := listedFirst (Bool.eq_false_iff.mpr some)
    have fit := s.listedFit
    rw [listed] at fit
    have read := itemsRead fit
    rw [itemsListed, listed, ofChars?, if_neg, read]
    · refine addedAll fit ?_
      rw [← listed, listedTotal]
      exact Nat.zero_add _
    · -- a bare zero is no count of anything
      intro bare
      rw [bare] at read
      cases read

theorem Item.Fits.charsShape {i : Item} (fits : i.Fits) :
    ∀ c ∈ i.chars, c.isDigit = true ∨ isUnitChar c = true := by
  intro c mem
  rcases List.mem_append.mp mem with digit | letter
  · exact .inl (Numeral.decimalChar digit)
  · have letters := List.all_eq_true.mp (namesLetters i.unit) i.name fits.named
    rw [Bool.and_eq_true] at letters
    have shape := List.all_eq_true.mp letters.2 c letter
    simp only [isLetter, Bool.and_eq_true] at shape
    exact .inr shape.1.1

theorem joinedShape {is : List Item} (fit : ∀ i ∈ is, i.Fits) :
    ∀ c ∈ [' '].intercalate (is.map Item.chars), c.isDigit = true ∨ isUnitChar c = true ∨ c = ' ' := by
  induction is with
  | nil => simp
  | cons i is ih =>
    intro c mem
    have first := (fit i List.mem_cons_self).charsShape c
    have others := ih (fun j mem => fit j (List.mem_cons_of_mem i mem)) c
    cases is with
    | nil =>
      rw [List.map_singleton, List.intercalate_singleton] at mem
      exact (first mem).imp_right .inl
    | cons j is =>
      rw [List.map_cons, List.map_cons, List.intercalate_cons_cons, List.mem_append, List.mem_append] at mem
      rcases mem with (here | gap) | more
      · exact (first here).imp_right .inl
      · exact .inr (.inr (List.mem_singleton.mp gap))
      · exact others more

theorem textShape (s : Span) : ∀ c ∈ s.text.toList, c.isDigit = true ∨ isUnitChar c = true ∨ c = ' ' := by
  rw [text, String.toList_ofList, toChars]
  split
  · intro c mem
    rcases List.mem_cons.mp mem with rfl | unit
    · exact .inl rfl
    · rw [List.mem_singleton.mp unit]
      exact .inr (.inl rfl)
  · rw [itemsListed]
    exact joinedShape s.listedFit

end FirewallAgent.Span
