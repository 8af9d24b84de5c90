import FirewallAgent.Dictionary

/-! Dictionaries cut down to some of their keys, and lists of entries that already are dictionaries.
Inserting the entries of an ascending list one after another gives that list back, and of any list the last
entry of each key. -/
namespace FirewallAgent

namespace Entries

theorem placeLast {k v : String} {es : Entries} (above : ∀ e ∈ es, e.1 < k) :
    place k v es = es ++ [(k, v)] := by
  induction es with
  | nil => rfl
  | cons e rest ih =>
    have lt : e.1 < k := above e List.mem_cons_self
    have notLess : ¬ k < e.1 := fun h => String.lt_irrefl k (String.lt_trans h lt)
    have different : k ≠ e.1 := fun h => String.lt_irrefl k (h ▸ lt)
    have tail := ih fun x hx => above x (List.mem_cons_of_mem e hx)
    rw [place, if_neg notLess, if_neg different, tail, List.cons_append]

theorem placedAmong {k v : String} {es : Entries} (new : ∀ e ∈ es, e.1 ≠ k) :
    (place k v es).Perm ((k, v) :: es) := by
  induction es with
  | nil => exact .refl _
  | cons e rest ih =>
    have tail := ih fun x hx => new x (List.mem_cons_of_mem e hx)
    rw [place]
    split
    · exact .refl _
    · rw [if_neg fun same => new e List.mem_cons_self same.symm]
      exact (tail.cons e).trans (.swap (k, v) e rest)

theorem ascendingFilter (p : String → Bool) {es : Entries} (h : es.Ascending) :
    Ascending (es.filter fun e => p e.1) := List.Pairwise.filter _ h

theorem valueOfFilter (p : String → Bool) (k : String) (es : Entries) :
    valueOf? k (es.filter fun e => p e.1) = if p k then valueOf? k es else none := by
  induction es with
  | nil => simp [valueOf?]
  | cons e rest ih =>
    by_cases same : e.1 = k
    · subst same
      cases kept : p e.1 with
      | true => simp [valueOf?, kept]
      | false => simpa [valueOf?, kept] using ih
    · cases kept : p e.1 with
      | true => simp [valueOf?, kept, same, ih]
      | false => simp [valueOf?, kept, same, ih]

theorem valueOfMember {k v : String} {es : Entries} (found : valueOf? k es = some v) :
    (k, v) ∈ es := by
  induction es with
  | nil => simp [valueOf?] at found
  | cons e rest ih =>
    rw [valueOf?] at found
    split at found
    · rename_i same
      cases Option.some.inj found
      subst same
      exact List.mem_cons_self
    · exact List.mem_cons_of_mem e (ih found)

theorem memberValue {k v : String} {es : Entries} (order : es.Ascending) (there : (k, v) ∈ es) :
    valueOf? k es = some v := by
  induction es with
  | nil => simp at there
  | cons e rest ih =>
    obtain ⟨first, order⟩ := List.pairwise_cons.mp order
    rcases List.mem_cons.mp there with rfl | later
    · exact if_pos rfl
    · have lt : e.1 < k := first (k, v) later
      have other : e.1 ≠ k := fun same => String.lt_irrefl k (same ▸ lt)
      rw [valueOf?, if_neg other]
      exact ih order later

def LastIs (es : Entries) (k v : String) : Prop :=
  ∃ before after, es = before ++ (k, v) :: after ∧ ∀ e ∈ after, e.1 ≠ k

theorem lastCons {k v : String} {e : String × String} {es : Entries} :
    LastIs (e :: es) k v ↔ LastIs es k v ∨ (e = (k, v) ∧ ∀ x ∈ es, x.1 ≠ k) := by
  constructor
  · rintro ⟨before, after, parts, last⟩
    cases before with
    | nil =>
      obtain ⟨same, rfl⟩ := List.cons.inj parts
      exact .inr ⟨same, last⟩
    | cons x before => exact .inl ⟨before, after, (List.cons.inj parts).2, last⟩
  · rintro (⟨before, after, rfl, last⟩ | ⟨rfl, last⟩)
    · exact ⟨e :: before, after, rfl, last⟩
    · exact ⟨[], es, rfl, last⟩

end Entries

namespace Dictionary

theorem sameEntries {a b : Dictionary} (h : a.entries = b.entries) : a = b := by
  cases a
  cases b
  cases h
  rfl

def keep (d : Dictionary) (p : String → Bool) : Dictionary :=
  ⟨d.entries.filter fun e => p e.1, Entries.ascendingFilter p d.ascending⟩

theorem getKeep (d : Dictionary) (p : String → Bool) (k : String) :
    (d.keep p).get? k = if p k then d.get? k else none := Entries.valueOfFilter p k d.entries

def insertAll (d : Dictionary) (es : Entries) : Dictionary :=
  es.foldl (fun d e => d.insert e.1 e.2) d

theorem insertAllEntries {d : Dictionary} {es : Entries} (order : (d.entries ++ es).Pairwise (·.1 < ·.1)) :
    (d.insertAll es).entries = d.entries ++ es := by
  induction es generalizing d with
  | nil => simp [insertAll]
  | cons e rest ih =>
    have above : ∀ x ∈ d.entries, x.1 < e.1 := by
      intro x hx
      exact (List.pairwise_append.mp order).2.2 x hx e List.mem_cons_self
    have placed : (d.insert e.1 e.2).entries = d.entries ++ [e] := Entries.placeLast above
    have next := ih (d := d.insert e.1 e.2) (by rw [placed, List.append_assoc]; exact order)
    rw [placed, List.append_assoc] at next
    exact next

theorem insertAllAmong {d : Dictionary} {es : Entries}
    (distinct : (d.entries ++ es).Pairwise (·.1 ≠ ·.1)) :
    (d.insertAll es).entries.Perm (d.entries ++ es) := by
  induction es generalizing d with
  | nil => simp [insertAll]
  | cons e rest ih =>
    have moved : (d.entries ++ e :: rest).Perm ((e :: d.entries) ++ rest) := List.perm_middle
    have new : ∀ x ∈ d.entries, x.1 ≠ e.1 := by
      intro x hx
      exact (List.pairwise_append.mp distinct).2.2 x hx e List.mem_cons_self
    have placed : ((d.insert e.1 e.2).entries ++ rest).Perm (d.entries ++ e :: rest) :=
      ((Entries.placedAmong new).append_right rest).trans moved.symm
    exact (ih (distinct.perm placed.symm Ne.symm)).trans placed

theorem insertAllListing {d : Dictionary} {es : Entries} (listing : es.Perm d.entries) :
    empty.insertAll es = d := by
  have apart : d.entries.Pairwise (·.1 ≠ ·.1) := by
    refine List.Pairwise.imp ?_ d.ascending
    intro a b lt same
    exact String.lt_irrefl a.1 (same ▸ lt)
  have among : (empty.insertAll es).entries.Perm d.entries :=
    (insertAllAmong (d := empty) (apart.perm listing.symm Ne.symm)).trans listing
  refine sameEntries (among.eq_of_pairwise ?_ (empty.insertAll es).ascending d.ascending)
  intro a b _ _ lt gt
  exact absurd (String.lt_trans lt gt) (String.lt_irrefl _)

theorem getMember {d : Dictionary} {k v : String} : d.get? k = some v ↔ (k, v) ∈ d.entries :=
  ⟨Entries.valueOfMember, Entries.memberValue d.ascending⟩

theorem getInsertAll {d : Dictionary} {es : Entries} {k v : String} : (d.insertAll es).get? k = some v ↔
    es.LastIs k v ∨ ((∀ e ∈ es, e.1 ≠ k) ∧ d.get? k = some v) := by
  induction es generalizing d with
  | nil => simp [insertAll, Entries.LastIs]
  | cons e rest ih =>
    have goes : d.insertAll (e :: rest) = (d.insert e.1 e.2).insertAll rest := rfl
    rw [goes, ih, getInsert, Entries.lastCons, List.forall_mem_cons]
    by_cases same : e.1 = k
    · simp [same, Prod.ext_iff, and_comm]
    · simp [same, Prod.ext_iff]

theorem getOfList {es : Entries} {k v : String} : (ofList es).get? k = some v ↔ es.LastIs k v := by
  have all : (ofList es).get? k = some v ↔ es.LastIs k v ∨ ((∀ e ∈ es, e.1 ≠ k) ∧ empty.get? k = some v) :=
    getInsertAll
  simpa [getEmpty] using all

theorem memberOfList {es : Entries} {e : String × String} (there : e ∈ (ofList es).entries) : e ∈ es := by
  obtain ⟨before, after, parts, _⟩ := getOfList.mp (getMember.mpr there)
  simp [parts]

theorem ofListEntries (d : Dictionary) : ofList d.entries = d := insertAllListing (.refl _)

theorem ofListPerm {es fs : Entries} (same : es.Perm fs) (apart : es.Pairwise (·.1 ≠ ·.1)) :
    ofList es = ofList fs := by
  have among : (ofList fs).entries.Perm fs :=
    insertAllAmong (d := empty) (apart.perm same Ne.symm)
  exact insertAllListing (same.trans among.symm)

theorem insertAllKeep (d : Dictionary) (p : String → Bool) :
    empty.insertAll (d.entries.filter fun e => p e.1) = d.keep p := by
  have order := Entries.ascendingFilter p d.ascending
  exact sameEntries (insertAllEntries (d := empty) order)

end Dictionary
end FirewallAgent
