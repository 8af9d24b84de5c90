import FirewallAgent.FilePath

/-! Path texts taken apart and put together again. A path with another extension names another file of
the same directory, unless it had that extension already. -/
namespace FirewallAgent.FilePath

theorem splitAtSplitOn (sep : Char) (cs : List Char) : splitAt sep cs = cs.splitOn sep := by
  induction cs with
  | nil => rfl
  | cons c rest ih =>
    obtain ⟨p, ps, found⟩ := List.exists_cons_of_ne_nil (List.splitOn_ne_nil sep rest)
    rw [splitAt, List.splitOn_cons_eq_if_modifyHead, ih, found]
    by_cases same : c = sep <;> simp [same]

theorem splitAtFree {sep : Char} {cs : List Char} (free : sep ∉ cs) : splitAt sep cs = [cs] := by
  rw [splitAtSplitOn, List.splitOn_eq_singleton free]

theorem splitAtFilled (sep : Char) (cs : List Char) : splitAt sep cs ≠ [] := by
  rw [splitAtSplitOn]
  exact List.splitOn_ne_nil sep cs

theorem splitAtAppend (sep : Char) (cs ds : List Char) :
    splitAt sep (cs ++ sep :: ds) = splitAt sep cs ++ splitAt sep ds := by
  simp only [splitAtSplitOn, List.splitOn_append_cons_self]

theorem splitAtPart {sep : Char} {cs p : List Char} (part : p ∈ splitAt sep cs) : sep ∉ p := by
  induction cs generalizing p with
  | nil => simp_all [splitAt]
  | cons c rest ih =>
    rw [splitAt] at part
    split at part
    · rcases List.mem_cons.mp part with rfl | part
      · simp
      · exact ih part
    · rename_i head
      cases found : splitAt sep rest with
      | nil => exact absurd found (splitAtFilled sep rest)
      | cons q qs =>
        have first : sep ∉ q := ih (found ▸ List.mem_cons_self)
        rw [found] at part
        rcases List.mem_cons.mp part with rfl | part
        · simp [first, Ne.symm head]
        · exact ih (found ▸ List.mem_cons_of_mem q part)

theorem splitAtJoined {sep : Char} {ps : List (List Char)} (filled : ps ≠ [])
    (free : ∀ p ∈ ps, sep ∉ p) : splitAt sep ([sep].intercalate ps) = ps := by
  rw [splitAtSplitOn, List.splitOn_intercalate sep free filled]

theorem joinedSplitAt (sep : Char) (cs : List Char) : [sep].intercalate (splitAt sep cs) = cs := by
  rw [splitAtSplitOn, List.intercalate_splitOn]

theorem partsFree {path p : String} (part : p ∈ parts path) : '/' ∉ p.toList := by
  obtain ⟨cs, there, rfl⟩ := List.mem_map.mp part
  simpa using splitAtPart there

theorem trimmedRest (ps : List String) : ∃ idle, ps = trimmed ps ++ idle ∧
    (∀ p ∈ idle, p = "" ∨ p = ".") ∧ (trimmed ps).getLast? ≠ some "" := by
  cases ps with
  | nil => exact ⟨[], rfl, by simp, by simp [trimmed]⟩
  | cons p rest =>
    have parted : rest = (rest.reverse.dropWhile (saysNothing false)).reverse ++
        (rest.reverse.takeWhile (saysNothing false)).reverse := by
      rw [← List.reverse_append, List.takeWhile_append_dropWhile, List.reverse_reverse]
    have silent : ∀ q ∈ (rest.reverse.takeWhile (saysNothing false)).reverse, q = "" ∨ q = "." := by
      intro q there
      have quiet := List.all_eq_true.mp List.all_takeWhile q (List.mem_reverse.mp there)
      simpa [saysNothing] using quiet
    rw [trimmed]
    split
    · rename_i none
      have all : rest = (rest.reverse.takeWhile (saysNothing false)).reverse := by
        rw [List.isEmpty_iff.mp none] at parted
        simpa using parted
      split
      · rename_i first
        refine ⟨p :: rest, rfl, ?_, by simp⟩
        intro q there
        rcases List.mem_cons.mp there with rfl | there
        · exact .inl (by simpa [saysNothing] using first)
        · exact silent q (all ▸ there)
      · rename_i first
        exact ⟨rest, rfl, all ▸ silent, by simpa [saysNothing] using first⟩
    · rename_i some
      refine ⟨_, congrArg (p :: ·) parted, silent, ?_⟩
      have filled : rest.reverse.dropWhile (saysNothing false) ≠ [] := by simpa using some
      have said := List.head_dropWhile_not (saysNothing false) filled
      intro last
      rw [List.getLast?_cons_of_ne_nil (by simpa using filled), List.getLast?_reverse,
        List.head?_eq_some_head filled] at last
      rw [Option.some.inj last] at said
      contradiction

theorem joinedLast (sep : Char) {ps : List (List Char)} (filled : ps ≠ []) (last : List Char) :
    [sep].intercalate (ps ++ [last]) = [sep].intercalate ps ++ sep :: last := by
  induction ps with
  | nil => exact absurd rfl filled
  | cons p ps ih =>
    cases ps with
    | nil => simp [List.intercalate_cons_cons]
    | cons q qs =>
      have tail := ih (by simp)
      rw [List.cons_append] at tail
      rw [List.cons_append, List.cons_append, List.intercalate_cons_cons, List.intercalate_cons_cons,
        tail, ← List.append_assoc]

theorem stemPrefix (name : String) : (stem name).toList <+: name.toList := by
  have filled := splitAtFilled '.' name.toList
  have parted := List.dropLast_concat_getLast filled
  have whole := joinedSplitAt '.' name.toList
  unfold stem
  split
  · exact List.prefix_rfl
  · exact List.prefix_rfl
  · rename_i some _
    rw [String.toList_ofList]
    rw [← parted, joinedLast '.' some] at whole
    exact ⟨_, whole⟩

theorem stemExtended {s ext : String} (filled : s ≠ "") (plain : '.' ∉ ext.toList) :
    stem (s ++ "." ++ ext) = s := by
  have parted : (splitAt '.' (s ++ "." ++ ext).toList).dropLast = splitAt '.' s.toList := by
    have text : (s ++ "." ++ ext).toList = s.toList ++ '.' :: ext.toList := by simp
    rw [text, splitAtAppend, splitAtFree plain, List.dropLast_concat]
  have whole := joinedSplitAt '.' s.toList
  unfold stem
  rw [parted]
  split
  · rename_i none
    exact absurd none (splitAtFilled '.' _)
  · rename_i bare
    rw [bare] at whole
    exact absurd (String.toList_inj.mp (by simpa using whole.symm)) filled
  · rw [whole, String.ofList_toList]

theorem stemHidden {ext : String} (plain : '.' ∉ ext.toList) : stem ("." ++ ext) = "." ++ ext := by
  have parted : (splitAt '.' ("." ++ ext).toList).dropLast = [[]] := by
    have text : ("." ++ ext).toList = [] ++ '.' :: ext.toList := by simp
    rw [text, splitAtAppend, splitAtFree plain, List.dropLast_concat]
    rfl
  rw [stem, parted]

theorem sameExtended (name : String) {ext : String} (plain : '.' ∉ ext.toList) :
    stem name ++ "." ++ ext = name ↔ ∃ s, s ≠ "" ∧ name = s ++ "." ++ ext := by
  constructor
  · intro same
    refine ⟨stem name, ?_, same.symm⟩
    intro empty
    have hidden : "." ++ ext = name := by simpa [empty] using same
    rw [← hidden, stemHidden plain] at empty
    simpa using congrArg String.toList empty
  · rintro ⟨s, filled, rfl⟩
    rw [stemExtended filled plain]

structure Named (path : String) (dirs : List String) (name : String) (idle : List String) : Prop where
  parted : parts path = dirs ++ name :: idle
  silent : ∀ p ∈ idle, p = "" ∨ p = "."
  filled : name ≠ ""
  here : name ≠ "."
  up : name ≠ ".."
  extended : ∀ ext, '/' ∉ ext.toList →
    parts (withExtension path ext) = dirs ++ [stem name ++ "." ++ ext]

theorem joinParts {dirs : List String} {name : String} (free : ∀ p ∈ dirs, '/' ∉ p.toList)
    (plain : '/' ∉ name.toList) :
    parts ((if dirs.isEmpty then "" else join dirs ++ "/") ++ name) = dirs ++ [name] := by
  cases dirs with
  | nil => simp [parts, splitAtFree plain]
  | cons d ds =>
    have text : ((if (d :: ds).isEmpty then "" else join (d :: ds) ++ "/") ++ name).toList =
        ['/'].intercalate ((d :: ds).map String.toList) ++ '/' :: name.toList := by
      simp [join]
    have apart : ∀ p ∈ (d :: ds).map String.toList, '/' ∉ p := by
      intro p there
      obtain ⟨q, member, rfl⟩ := List.mem_map.mp there
      exact free q member
    rw [parts, text, splitAtAppend, splitAtJoined (by simp) apart, splitAtFree plain]
    simp

theorem namedParts {path name : String} (named : name? path = some name) :
    ∃ dirs idle, Named path dirs name idle := by
  have known := named
  obtain ⟨idle, parted, silent, said⟩ := trimmedRest (parts path)
  unfold name? at named
  split at named
  · rename_i last found
    split at named
    · contradiction
    · rename_i proper
      cases Option.some.inj named
      obtain ⟨dirs, whole⟩ := List.getLast?_eq_some_iff.mp found
      have free : ∀ p ∈ dirs ++ [name], '/' ∉ p.toList := by
        intro p there
        have part : p ∈ parts path := parted ▸ whole ▸ List.mem_append_left idle there
        exact partsFree part
      refine ⟨dirs, idle, ?_, silent, ?_, fun same => proper (.inl same), fun same => proper (.inr same), ?_⟩
      · rw [parted, whole, List.append_assoc, List.singleton_append]
      · rintro rfl
        exact said found
      · intro ext plain
        have clean : '/' ∉ (stem name ++ "." ++ ext).toList := by
          have kept : '/' ∉ (stem name).toList := fun there =>
            free name (by simp) ((stemPrefix name).subset there)
          simp [kept, plain]
        have front := joinParts (fun p there => free p (List.mem_append_left _ there)) clean
        simp only [withExtension, known, whole, List.dropLast_concat]
        rw [← front, String.append_assoc, String.append_assoc, String.append_assoc]
  · contradiction

theorem nameOfLast {path n : String} (last : ((parts path).filter (· ≠ "")).getLast? = some n)
    (here : n ≠ ".") (up : n ≠ "..") : name? path = some n := by
  obtain ⟨idle, parted, silent, said⟩ := trimmedRest (parts path)
  have dots : idle.filter (· ≠ "") = [] := by
    rw [parted, List.filter_append] at last
    cases tail : (idle.filter (· ≠ "")).getLast? with
    | none => exact List.getLast?_eq_none_iff.mp tail
    | some p =>
      have member := List.mem_filter.mp (List.mem_of_getLast? tail)
      have dot : p = "." := (silent p member.1).resolve_left (by simpa using member.2)
      rw [List.getLast?_append, tail] at last
      exact absurd (Option.some.inj last).symm (dot ▸ here)
  rw [parted, List.filter_append, dots, List.append_nil] at last
  have found : (trimmed (parts path)).getLast? = some n := by
    cases end_ : (trimmed (parts path)).getLast? with
    | none => simp [List.getLast?_eq_none_iff.mp end_] at last
    | some p =>
      obtain ⟨front, whole⟩ := List.getLast?_eq_some_iff.mp end_
      have filled : p ≠ "" := fun empty => said (empty ▸ end_)
      simpa [whole, List.filter_append, filled] using last
  simp [name?, found, here, up]

theorem absoluteParts (path : String) :
    isAbsolute path = true ↔ ∃ p ps, parts path = "" :: p :: ps := by
  unfold isAbsolute parts
  cases path.toList with
  | nil => simp [splitAt]
  | cons c rest =>
    rw [splitAt]
    cases found : splitAt '/' rest with
    | nil => exact absurd found (splitAtFilled '/' rest)
    | cons q qs => by_cases root : c = '/' <;> simp [root]

theorem Named.absolute {path name : String} {dirs idle : List String} (h : Named path dirs name idle)
    {ext : String} (plain : '/' ∉ ext.toList) :
    isAbsolute (withExtension path ext) = isAbsolute path := by
  have other := h.extended ext plain
  rw [Bool.eq_iff_iff, absoluteParts, absoluteParts, h.parted, other]
  cases dirs with
  | nil => simp [h.filled]
  | cons d ds => cases ds <;> simp

end FirewallAgent.FilePath
