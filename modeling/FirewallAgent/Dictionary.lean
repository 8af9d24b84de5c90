/-!
Finite maps from text to text, kept as entries in strictly ascending key order. Two dictionaries
with the same entries are equal, and every listing is in the order of the keys' characters.
-/
namespace FirewallAgent

abbrev Entries := List (String × String)

namespace Entries

def Ascending (es : Entries) : Prop := es.Pairwise fun a b => a.1 < b.1

instance (es : Entries) : Decidable es.Ascending := inferInstanceAs (Decidable (es.Pairwise _))

def place (k v : String) : Entries → Entries
  | [] => [(k, v)]
  | e :: rest =>
    if k < e.1 then (k, v) :: e :: rest
    else if k = e.1 then (k, v) :: rest
    else e :: place k v rest

theorem placedKey {k v : String} {es : Entries} {p : String × String} (h : p ∈ place k v es) :
    p.1 = k ∨ p ∈ es := by
  induction es with
  | nil => simp_all [place]
  | cons e rest ih =>
    rw [place] at h
    split at h
    · rcases List.mem_cons.1 h with rfl | h <;> simp_all
    · split at h
      · rcases List.mem_cons.1 h with rfl | h <;> simp_all
      · rcases List.mem_cons.1 h with rfl | h
        · simp
        · rcases ih h with h | h <;> simp [h]

theorem placeAscending {k v : String} {es : Entries} (h : es.Ascending) :
    (place k v es).Ascending := by
  induction es with
  | nil => simp [place, Ascending]
  | cons e rest ih =>
    obtain ⟨hd, tl⟩ := List.pairwise_cons.1 h
    rw [place]
    split
    · rename_i lt
      refine List.pairwise_cons.2 ⟨fun p hp => ?_, h⟩
      rcases List.mem_cons.1 hp with rfl | hp
      · exact lt
      · exact String.lt_trans lt (hd p hp)
    · rename_i nlt
      split
      · rename_i eq
        exact List.pairwise_cons.2 ⟨fun p hp => eq ▸ hd p hp, tl⟩
      · rename_i ne
        refine List.pairwise_cons.2 ⟨fun p hp => ?_, ih tl⟩
        rcases placedKey hp with hp | hp
        · rw [hp]
          exact String.not_le.1 fun le => ne (String.le_antisymm le (String.not_lt.1 nlt))
        · exact hd p hp

def valueOf? (k : String) : Entries → Option String
  | [] => none
  | e :: rest => if e.1 = k then some e.2 else valueOf? k rest

end Entries

structure Dictionary where
  entries : Entries
  ascending : entries.Ascending := by decide
  deriving DecidableEq

namespace Dictionary

def empty : Dictionary := ⟨[], List.Pairwise.nil⟩

instance : Inhabited Dictionary := ⟨empty⟩

def insert (d : Dictionary) (k v : String) : Dictionary :=
  ⟨Entries.place k v d.entries, Entries.placeAscending d.ascending⟩

def ofList (es : Entries) : Dictionary := es.foldl (fun d e => d.insert e.1 e.2) empty

def get? (d : Dictionary) (k : String) : Option String := d.entries.valueOf? k

def keys (d : Dictionary) : List String := d.entries.map Prod.fst

def size (d : Dictionary) : Nat := d.entries.length

def isEmpty (d : Dictionary) : Bool := d.entries.isEmpty

theorem getEmpty (k : String) : empty.get? k = none := rfl

private theorem valueOfPlace (k v j : String) (es : Entries) :
    Entries.valueOf? j (Entries.place k v es) = if k = j then some v else Entries.valueOf? j es := by
  induction es with
  | nil => rfl
  | cons e rest ih =>
    rw [Entries.place]
    split
    · simp [Entries.valueOf?]
    · split
      · rename_i eq
        simp only [Entries.valueOf?, ← eq]
        split <;> rfl
      · rename_i ne
        simp only [Entries.valueOf?, ih]
        split
        · rename_i ej
          rw [if_neg fun h => ne (h.trans ej.symm)]
        · rfl

@[simp] theorem getInsert (d : Dictionary) (k v j : String) :
    (d.insert k v).get? j = if k = j then some v else d.get? j :=
  valueOfPlace k v j d.entries

end Dictionary
end FirewallAgent
