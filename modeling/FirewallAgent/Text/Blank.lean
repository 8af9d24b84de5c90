/-!
Blank characters and trimming. The blanks are the characters with the Unicode property
White_Space; every trimming of user text in this library uses them.
-/
namespace FirewallAgent.Text

def isBlank (c : Char) : Bool :=
  (0x09 ≤ c.toNat && c.toNat ≤ 0x0D) || c.toNat == 0x20 || c.toNat == 0x85 || c.toNat == 0xA0 ||
  c.toNat == 0x1680 || (0x2000 ≤ c.toNat && c.toNat ≤ 0x200A) || c.toNat == 0x2028 ||
  c.toNat == 0x2029 || c.toNat == 0x202F || c.toNat == 0x205F || c.toNat == 0x3000

def trimChars (cs : List Char) : List Char :=
  ((cs.dropWhile isBlank).reverse.dropWhile isBlank).reverse

def trim (s : String) : String := String.ofList (trimChars s.toList)

theorem trimCharsNil {cs : List Char} (h : ∀ c ∈ cs, isBlank c = true) : trimChars cs = [] := by
  have : cs.dropWhile isBlank = [] := by
    induction cs with
    | nil => rfl
    | cons c rest ih => simp_all
  simp [trimChars, this]

theorem dropPadding {pad cs : List Char} (blank : ∀ c ∈ pad, isBlank c = true)
    (solid : ∀ c, cs.head? = some c → isBlank c = false) : (pad ++ cs).dropWhile isBlank = cs := by
  rw [List.dropWhile_append_of_pos blank]
  cases cs with
  | nil => rfl
  | cons c cs => simp [solid c rfl]

theorem trimCharsPadded {before cs after : List Char} (front : ∀ c ∈ before, isBlank c = true)
    (solid : ∀ c ∈ cs, isBlank c = false) (back : ∀ c ∈ after, isBlank c = true) :
    trimChars (before ++ (cs ++ after)) = cs := by
  cases cs with
  | nil =>
    apply trimCharsNil
    simpa [or_imp, forall_and] using ⟨front, back⟩
  | cons c cs =>
    have first : ∀ x, (c :: cs ++ after).head? = some x → isBlank x = false := by
      intro x head
      exact solid x (by simp_all)
    have last : ∀ x, (c :: cs).reverse.head? = some x → isBlank x = false := by
      intro x head
      exact solid x (List.mem_reverse.mp (List.mem_of_head? head))
    rw [trimChars, dropPadding front first, List.reverse_append, dropPadding (by simpa using back) last,
      List.reverse_reverse]

theorem trimPadded {before s after : String} (front : ∀ c ∈ before.toList, isBlank c = true)
    (solid : ∀ c ∈ s.toList, isBlank c = false) (back : ∀ c ∈ after.toList, isBlank c = true) :
    trim (before ++ s ++ after) = s := by
  rw [trim, String.toList_append, String.toList_append, List.append_assoc, trimCharsPadded front solid back,
    String.ofList_toList]

end FirewallAgent.Text
