import FirewallAgent.Proofs.Dictionary
import FirewallAgent.Proofs.FilePath
import FirewallAgent.Query
import Mathlib.Data.List.Basic

/-! Query parameters written out and read back. Writing escapes nothing, so two dictionaries get the same text
as soon as they agree when cut at every ampersand, also at those inside a key or a value. Dictionaries that
were read from a URL have no signs in such places, and these come back as they were. -/
namespace FirewallAgent.Query

variable {d d' : Dictionary} {e : String × String} {url k v : String} {sep : Char} {cs front back : List Char}

def written (url : String) : List (List Char) :=
  ((url.toList.dropWhile (· ≠ '?')).tail.splitOn '&').filter (· ≠ [])

def nameOf (piece : List Char) : String := String.ofList (piece.takeWhile (· ≠ '='))

def valueOf (piece : List Char) : String := String.ofList (piece.dropWhile (· ≠ '=')).tail

def LastWrites (url k v : String) : Prop :=
  ∃ before piece after, written url = before ++ piece :: after ∧ nameOf piece = k ∧ valueOf piece = v ∧
    ∀ p ∈ after, nameOf p ≠ k

def Plain (d : Dictionary) : Prop :=
  ∀ e ∈ d.entries, ('&' ∉ e.1.toList ∧ '=' ∉ e.1.toList) ∧ '&' ∉ e.2.toList

instance (d : Dictionary) : Decidable (Plain d) := inferInstanceAs (Decidable (∀ e ∈ d.entries, _))

def entryText (e : String × String) : List Char := e.1.toList ++ '=' :: e.2.toList

def shreds (d : Dictionary) : List (List Char) := d.entries.flatMap fun e => (entryText e).splitOn '&'

theorem cutAtFirst (free : sep ∉ front) (back : List Char) :
    cutAt sep (front ++ sep :: back) = some (front, back) := by
  induction front with
  | nil => exact if_pos rfl
  | cons c front ih =>
    have other : c ≠ sep := fun same => free (same ▸ List.mem_cons_self)
    have later := ih fun there => free (List.mem_cons_of_mem c there)
    rw [List.cons_append, cutAt, if_neg other, later, Option.map_some]

theorem cutAtNowhere (free : sep ∉ cs) : cutAt sep cs = none := by
  induction cs with
  | nil => rfl
  | cons c cs ih =>
    have other : c ≠ sep := fun same => free (same ▸ List.mem_cons_self)
    rw [cutAt, if_neg other, ih fun there => free (List.mem_cons_of_mem c there), Option.map_none]

theorem passes (free : sep ∉ cs) : ∀ c ∈ cs, decide (c ≠ sep) = true :=
  fun _ there => decide_eq_true fun same => free (same ▸ there)

theorem cutWhile (free : sep ∉ front) (back : List Char) :
    (front ++ sep :: back).takeWhile (· ≠ sep) = front ∧
      (front ++ sep :: back).dropWhile (· ≠ sep) = sep :: back := by
  rw [List.takeWhile_append_of_pos (passes free), List.dropWhile_append_of_pos (passes free)]
  simp

theorem wholeWhile (free : sep ∉ cs) : cs.takeWhile (· ≠ sep) = cs ∧ cs.dropWhile (· ≠ sep) = [] := by
  have front : (cs ++ []).takeWhile (· ≠ sep) = cs ++ [] := List.takeWhile_append_of_pos (passes free)
  have back : (cs ++ []).dropWhile (· ≠ sep) = [] := List.dropWhile_append_of_pos (passes free)
  rw [List.append_nil] at front back
  exact ⟨front, back⟩

theorem firstOrNone (sep : Char) (cs : List Char) :
    sep ∉ cs ∨ ∃ front back, cs = front ++ sep :: back ∧ sep ∉ front := by
  by_cases there : sep ∈ cs
  · obtain ⟨front, back, parts, free⟩ := List.eq_append_cons_of_mem there
    exact .inr ⟨front, back, parts, free⟩
  · exact .inl there

theorem piecesWritten (url : String) : pieces url = written url := by
  rw [pieces, written]
  rcases firstOrNone '?' url.toList with free | ⟨front, back, parts, free⟩
  · rw [cutAtNowhere free, (wholeWhile free).2]
    rfl
  · rw [parts, cutAtFirst free, (cutWhile free back).2, List.tail_cons, ← FilePath.splitAtSplitOn]

theorem parameterParts (piece : List Char) : parameter piece = (nameOf piece, valueOf piece) := by
  rw [parameter, nameOf, valueOf]
  rcases firstOrNone '=' piece with free | ⟨front, back, rfl, free⟩
  · rw [cutAtNowhere free, (wholeWhile free).1, (wholeWhile free).2]
    rfl
  · rw [cutAtFirst free, (cutWhile free back).1, (cutWhile free back).2]
    rfl

theorem parsedWritten (url : String) :
    parse url = .ofList ((written url).map fun p => (nameOf p, valueOf p)) := by
  rw [parse, piecesWritten, funext parameterParts]

theorem lastWritesIff : LastWrites url k v ↔
    Entries.LastIs ((written url).map fun p => (nameOf p, valueOf p)) k v := by
  constructor
  · rintro ⟨before, piece, after, parts, rfl, rfl, last⟩
    exact ⟨before.map _, after.map _, by rw [parts, List.map_append, List.map_cons], by simpa using last⟩
  · rintro ⟨before, after, parts, last⟩
    obtain ⟨front, rest, whole, rfl, more⟩ := List.map_eq_append_iff.mp parts
    obtain ⟨piece, back, rfl, same, rfl⟩ := List.map_eq_cons_iff.mp more
    obtain ⟨rfl, rfl⟩ := Prod.mk.inj same
    exact ⟨front, piece, back, whole, rfl, rfl, by simpa using last⟩

theorem getParsed : (parse url).get? k = some v ↔ LastWrites url k v := by
  rw [parsedWritten, Dictionary.getOfList, lastWritesIff]

theorem serializedText (d : Dictionary) : (serialize d).toList = ['&'].intercalate (d.entries.map entryText) := by
  have texts : String.toList ∘ (fun e : String × String => e.1 ++ "=" ++ e.2) = entryText := by
    funext e
    simp [entryText]
  rw [serialize, String.toList_intercalate, List.map_map, texts]
  rfl

theorem splitJoined {ps : List (List Char)} (filled : ps ≠ []) :
    ([sep].intercalate ps).splitOn sep = ps.flatMap (List.splitOn sep) := by
  induction ps with
  | nil => contradiction
  | cons p ps ih =>
    cases ps with
    | nil => simp
    | cons q qs =>
      rw [List.intercalate_cons_cons, List.append_assoc, List.singleton_append,
        List.splitOn_append_cons_self, ih (by simp), ← List.flatMap_cons]

theorem entrySplit (plain : ('&' ∉ e.1.toList ∧ '=' ∉ e.1.toList) ∧ '&' ∉ e.2.toList) :
    (entryText e).splitOn '&' = [entryText e] := by
  apply List.splitOn_eq_singleton
  simp [entryText, plain]

theorem shredsNone : shreds d = [] ↔ d.entries = [] := by
  rw [shreds, List.flatMap_eq_nil_iff]
  constructor
  · intro all
    exact List.eq_nil_iff_forall_not_mem.mpr fun e there => List.splitOn_ne_nil '&' _ (all e there)
  · intro none e there
    simp [none] at there

theorem serializedSplit (filled : d.entries ≠ []) : (serialize d).toList.splitOn '&' = shreds d := by
  rw [serializedText, splitJoined (by simpa using filled), List.flatMap_map]
  rfl

theorem serializedNone : (serialize d).toList = [] ↔ d.entries = [] := by
  rw [serializedText]
  cases entries : d.entries with
  | nil => simp
  | cons e rest => cases rest <;> simp [List.intercalate_cons_cons, entryText]

theorem splitOnSame {as bs : List Char} (same : as.splitOn sep = bs.splitOn sep) : as = bs := by
  have joined := congrArg [sep].intercalate same
  rwa [List.intercalate_splitOn, List.intercalate_splitOn] at joined

theorem serializedSame : serialize d = serialize d' ↔ shreds d = shreds d' := by
  rw [← String.toList_inj]
  -- an empty dictionary has no pieces, but its text would be split into one empty piece
  by_cases none : d.entries = []
  · have empty : shreds d = [] := shredsNone.mpr none
    rw [serializedNone.mpr none, empty, eq_comm, serializedNone, eq_comm (a := []), shredsNone]
  · by_cases none' : d'.entries = []
    · have empty : shreds d' = [] := shredsNone.mpr none'
      rw [serializedNone.mpr none', empty, serializedNone, shredsNone]
    · rw [← serializedSplit none, ← serializedSplit none']
      exact ⟨congrArg _, splitOnSame⟩

theorem plainShreds (plain : Plain d) : shreds d = d.entries.map entryText := by
  rw [shreds, List.map_eq_flatMap]
  exact List.flatMap_congr fun e there => entrySplit (plain e there)

theorem entryRead (plain : '=' ∉ e.1.toList) : (nameOf (entryText e), valueOf (entryText e)) = e := by
  rw [nameOf, valueOf, entryText, (cutWhile plain _).1, (cutWhile plain _).2]
  simp

theorem writtenSerialized (plain : Plain d) : written ("?" ++ serialize d) = d.entries.map entryText := by
  have behind : (("?" ++ serialize d).toList.dropWhile (· ≠ '?')).tail = (serialize d).toList := by
    simp
  rw [written, behind]
  by_cases none : d.entries = []
  · rw [serializedNone.mpr none, none]
    rfl
  · rw [serializedSplit none, plainShreds plain]
    refine List.filter_eq_self.mpr ?_
    intro piece there
    obtain ⟨e, _, rfl⟩ := List.mem_map.mp there
    simp [entryText]

theorem readBack (plain : Plain d) : parse ("?" ++ serialize d) = d := by
  have entries : d.entries.map ((fun p => (nameOf p, valueOf p)) ∘ entryText) = d.entries :=
    (List.map_congr_left fun e there => entryRead (plain e there).1.2).trans (List.map_id _)
  rw [parsedWritten, writtenSerialized plain, List.map_map, entries, Dictionary.ofListEntries]

theorem parsedPlain (url : String) : Plain (parse url) := by
  intro e there
  rw [parsedWritten] at there
  obtain ⟨p, member, rfl⟩ := List.mem_map.mp (Dictionary.memberOfList there)
  have whole : '&' ∉ p := by
    rw [written, List.mem_filter, ← FilePath.splitAtSplitOn] at member
    exact FilePath.splitAtPart member.1
  simp only [nameOf, valueOf, String.toList_ofList]
  refine ⟨⟨fun amp => whole ((List.takeWhile_sublist _).subset amp), fun sign => ?_⟩, fun amp => ?_⟩
  · have other := List.all_eq_true.mp List.all_takeWhile _ sign
    simp at other
  · exact whole ((List.dropWhile_sublist _).subset (List.mem_of_mem_tail amp))

theorem plainIff : Plain d ↔ ∃ url, parse url = d := by
  constructor
  · intro plain
    exact ⟨_, readBack plain⟩
  · rintro ⟨url, rfl⟩
    exact parsedPlain url

theorem plainSame (plain : Plain d) (plain' : Plain d') : shreds d = shreds d' ↔ d = d' := by
  constructor
  · intro same
    rw [← readBack plain, serializedSame.mpr same, readBack plain']
  · rintro rfl
    rfl

/- What was read from a URL is written so that it is read again, and it is told by the pieces of that URL
alone: of several pieces with one name the last one counts. -/
theorem parametersReadBack :
    (∀ url, parse ("?" ++ serialize (parse url)) = parse url) ∧
    (∀ u w, serialize (parse u) = serialize (parse w) → parse u = parse w) ∧
    ∀ url k v, (parse url).get? k = some v ↔ LastWrites url k v := by
  refine ⟨?_, ?_, ?_⟩
  · intro url
    exact readBack (parsedPlain url)
  · intro u w same
    exact (plainSame (parsedPlain u) (parsedPlain w)).mp (serializedSame.mp same)
  · intro url k v
    exact getParsed

def crowdedUrl : String := "/s?b=2&&a=b=c?&=&b"

theorem crowdedUrlReadsBack :
    parse ("?" ++ serialize (parse crowdedUrl)) = parse crowdedUrl ∧
    (serialize (parse crowdedUrl) = serialize (parse "?=&a=b=c?&b=") ∧
      parse crowdedUrl = parse "?=&a=b=c?&b=") ∧
    LastWrites crowdedUrl "b" "" := by
  obtain ⟨reads, injective, tells⟩ := parametersReadBack
  have same : serialize (parse crowdedUrl) = serialize (parse "?=&a=b=c?&b=") := by decide +kernel
  have bare : (parse crowdedUrl).get? "b" = some "" := by decide +kernel
  exact ⟨reads crowdedUrl, ⟨same, injective _ _ same⟩, (tells crowdedUrl "b" "").mp bare⟩

end FirewallAgent.Query
