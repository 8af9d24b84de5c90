import FirewallAgent.Address.Ip
import FirewallAgent.Proofs.Text.Numeral
import Mathlib.Data.Nat.Init

/-! Printed IP addresses read back. Every group of a version 6 address is read up to the colon behind it, a
shortened run of zeros is as long as the eight groups leave it, and no part of a version 6 address is taken
for a dotted one unless it is dotted. -/
namespace FirewallAgent.IpAddress
open Text.Numeral

variable {rest : List Char}

theorem octetRead (o : UInt8) (stops : Stops 10 rest) :
    takeOctet (write 10 o.toNat ++ rest) = some (o, rest) := by
  obtain ⟨ds, spells, whole⟩ := decimalSpells o.toNat
  have small : o.toNat < 256 := o.toNat_lt
  have short : ds.length ≤ 3 := spells.short (by decide) (by decide) (by omega)
  have plain : ¬ (ds.head? = some 0 ∧ ds.length > 1) := by
    rintro ⟨zero, long⟩
    have many : 1 < (write 10 o.toNat).length := spells.sameLength ▸ long
    have positive : 0 < o.toNat := by
      apply Nat.pos_of_ne_zero
      intro none
      rw [none] at many
      contradiction
    obtain ⟨ds, rfl⟩ := List.head?_eq_some_iff.mp zero
    obtain ⟨c, cs, written, digit, _⟩ := List.map_eq_cons_iff.mp spells
    apply leadingDigit positive
    rw [written, zeroDigit digit]
    rfl
  obtain ⟨d, more, rfl⟩ := spells.filled
  rw [takeOctet, spanJoined spells stops]
  dsimp only
  rw [whole, if_neg, UInt8.ofNat_toNat]
  rintro (long | zero | large)
  · exact absurd short (Nat.not_le.mpr long)
  · exact plain zero
  · omega

theorem groupRead (g : UInt16) (stops : Stops 16 rest) :
    takeGroup (write 16 g.toNat ++ rest) = some (g, rest) := by
  obtain ⟨ds, spells, whole⟩ := lowerHexSpells g.toNat
  have small : g.toNat < 65536 := g.toNat_lt
  have short : ds.length ≤ 4 := spells.short (by decide) (by decide) (by omega)
  obtain ⟨d, more, rfl⟩ := spells.filled
  rw [takeGroup, spanJoined spells stops]
  dsimp only
  rw [whole, if_neg (by omega), UInt16.ofNat_toNat]

theorem dotStops (rest : List Char) : Stops 10 ('.' :: rest) := by
  intro c first
  cases Option.some.inj first
  decide

theorem dottedRead (a b c d : UInt8) (stops : Stops 10 rest) :
    takeDotted (dottedText a b c d ++ rest) = some ((a, b, c, d), rest) := by
  simp [takeDotted, dottedText, octetRead, dotStops, takeDot, octetRead d stops]

/- What stands behind a group: it goes on with neither a number nor a dot. -/
structure Closes (rest : List Char) : Prop where
  digitless : Stops 16 rest
  dotless : rest.head? ≠ some '.'

theorem Closes.decimal (closes : Closes rest) : Stops 10 rest := by
  intro c first
  cases digit : digit? 10 c with
  | none => rfl
  | some d =>
    have wider : digit? 16 c = some d := digitWider digit (by decide)
    exact absurd (closes.digitless c first) (by simp [wider])

theorem Closes.ofSign {c : Char} (digit : digit? 16 c = none) (dot : c ≠ '.') (rest : List Char) :
    Closes (c :: rest) := by
  constructor
  · intro x first
    rwa [← Option.some.inj first]
  · simpa using dot

theorem Closes.colon (rest : List Char) : Closes (':' :: rest) := .ofSign (by decide) (by decide) rest

theorem hexChar {n : Nat} {c : Char} (member : c ∈ write 16 n) : ∃ d, digit? 16 c = some d := by
  obtain ⟨ds, spells, _⟩ := lowerHexSpells n
  exact spells.digit member

theorem spanUndotted {cs : List Char} (hex : ∀ c ∈ cs, c ≠ '.') (closes : Closes rest) :
    (span 10 (cs ++ rest)).2.head? ≠ some '.' := by
  induction cs with
  | nil =>
    rw [List.nil_append, spanStops closes.decimal]
    exact closes.dotless
  | cons c cs ih =>
    obtain ⟨first, later⟩ := List.forall_mem_cons.mp hex
    rw [List.cons_append, span]
    split
    · simpa using first
    · exact ih later

theorem takeDotNone {cs : List Char} (other : cs.head? ≠ some '.') : takeDot cs = none := by
  unfold takeDot
  split
  · simp at other
  · rfl

theorem takeOctetRest {cs : List Char} {o : UInt8} (found : takeOctet cs = some (o, rest)) :
    rest = (span 10 cs).2 := by
  unfold takeOctet at found
  split at found
  · contradiction
  · rename_i parts
    split at found
    · contradiction
    · cases Option.some.inj found
      rw [parts]

theorem undotted {cs : List Char} (hex : ∀ c ∈ cs, c ≠ '.') (closes : Closes rest) :
    takeDotted (cs ++ rest) = none := by
  cases found : takeOctet (cs ++ rest) with
  | none => simp [takeDotted, found]
  | some p =>
    obtain ⟨o, tail⟩ := p
    have stuck : takeDot tail = none := takeDotNone (takeOctetRest found ▸ spanUndotted hex closes)
    simp [takeDotted, found, stuck]

def tailText (gs : List UInt16) : List Char := gs.flatMap fun g => ':' :: write 16 g.toNat

theorem groupsTextCons (g : UInt16) (gs : List UInt16) :
    groupsText (g :: gs) = write 16 g.toNat ++ tailText gs := by
  induction gs generalizing g with
  | nil => simp [groupsText, tailText]
  | cons h gs ih =>
    rw [groupsText.eq_3 _ _ (by simp), ih]
    simp [tailText]

theorem hexUndotted {n : Nat} {c : Char} (member : c ∈ write 16 n) : c ≠ '.' := by
  obtain ⟨d, digit⟩ := hexChar member
  rintro rfl
  contradiction

/- No more groups stand here. A colon leads to another one, which is the mark for zeros. -/
structure Ends (rest : List Char) : Prop where
  closes : Closes rest
  apart : ∀ tail, rest = ':' :: tail → Closes tail

theorem Ends.nil : Ends [] := ⟨⟨nofun, by simp⟩, nofun⟩

theorem Ends.zeros (rest : List Char) : Ends (':' :: ':' :: rest) := by
  refine ⟨.colon _, ?_⟩
  intro tail same
  cases (List.cons.inj same).2
  exact .colon rest

theorem Ends.bracket (rest : List Char) : Ends (']' :: rest) := ⟨.ofSign (by decide) (by decide) rest, nofun⟩

theorem takeGroupNone (stops : Stops 16 rest) : takeGroup rest = none := by
  rw [takeGroup, spanStops stops]

theorem takeDottedNone (closes : Closes rest) : takeDotted rest = none := by
  exact undotted (show ∀ c ∈ ([] : List Char), c ≠ '.' from nofun) closes

theorem noFirstGroup (closes : Closes rest) (limit : Nat) : takeGroups limit true rest = ([], false, rest) := by
  cases limit with
  | zero => rfl
  | succ n => simp [takeGroups, afterColon, takeDottedNone closes, takeGroupNone closes.digitless]

theorem noNextGroup (ends : Ends rest) (limit : Nat) : takeGroups limit false rest = ([], false, rest) := by
  cases limit with
  | zero => rfl
  | succ n =>
    cases colon : afterColon false rest with
    | none => simp [takeGroups, colon]
    | some tail =>
      have parts : rest = ':' :: tail := by
        unfold afterColon at colon
        rw [if_neg (by decide)] at colon
        split at colon
        · rw [Option.some.inj colon]
        · contradiction
      have closes := ends.apart tail parts
      simp [takeGroups, colon, takeDottedNone closes, takeGroupNone closes.digitless]

theorem Closes.tailText (gs : List UInt16) (closes : Closes rest) : Closes (tailText gs ++ rest) := by
  cases gs with
  | nil => exact closes
  | cons g gs => exact .colon _

theorem takeGroupsNext (g : UInt16) (first : Bool) (limit : Nat) (closes : Closes rest) :
    takeGroups (limit + 1) first ((if first then [] else [':']) ++ (write 16 g.toNat ++ rest)) =
      (g :: (takeGroups limit false rest).1, (takeGroups limit false rest).2) := by
  have inner : afterColon first ((if first then [] else [':']) ++ (write 16 g.toNat ++ rest)) =
      some (write 16 g.toNat ++ rest) := by
    cases first <;> rfl
  have dotless := undotted (fun c => hexUndotted (n := g.toNat)) closes
  simp [takeGroups, inner, dotless, groupRead g closes.digitless]

theorem takeTailRead {gs : List UInt16} {limit : Nat} (fits : gs.length ≤ limit) (ends : Ends rest) :
    takeGroups limit false (tailText gs ++ rest) = (gs, false, rest) := by
  induction gs generalizing limit with
  | nil => exact noNextGroup ends limit
  | cons g gs ih =>
    cases limit with
    | zero => simp at fits
    | succ n =>
      have later := ih (Nat.le_of_succ_le_succ fits)
      have next := takeGroupsNext g false n (ends.closes.tailText gs)
      rw [later] at next
      simpa [tailText] using next

theorem takeGroupsRead {gs : List UInt16} {limit : Nat} (fits : gs.length ≤ limit) (ends : Ends rest) :
    takeGroups limit true (groupsText gs ++ rest) = (gs, false, rest) := by
  cases gs with
  | nil => exact noFirstGroup ends.closes limit
  | cons g gs =>
    cases limit with
    | zero => simp at fits
    | succ n =>
      have later := takeTailRead (Nat.le_of_succ_le_succ fits) ends
      have next := takeGroupsNext g true n (ends.closes.tailText gs)
      rw [later] at next
      simpa [groupsTextCons] using next

theorem longestZerosRun (gs : List UInt16) :
    (longestZeros gs).2 = 0 ∨ zerosAt gs (longestZeros gs).1 = (longestZeros gs).2 := by
  unfold longestZeros
  refine List.foldlRecOn (motive := fun best : Nat × Nat => best.2 = 0 ∨ zerosAt gs best.1 = best.2)
    (List.range gs.length) _ (.inl rfl) ?_
  intro best known i _
  split
  · exact .inr rfl
  · exact known

theorem zerosParts {gs : List UInt16} {start len : Nat} (run : zerosAt gs start = len) :
    gs = gs.take start ++ (List.replicate len 0 ++ gs.drop (start + len)) := by
  have zeros : (gs.drop start).takeWhile (· == 0) = List.replicate len 0 := by
    refine List.eq_replicate_iff.mpr ⟨run, ?_⟩
    intro g member
    exact beq_iff_eq.mp (List.all_eq_true.mp List.all_takeWhile g member)
  have behind : (gs.drop start).dropWhile (· == 0) = gs.drop (start + len) := by
    have parts := List.takeWhile_append_dropWhile (p := (· == 0)) (l := gs.drop start)
    have rest := congrArg (List.drop len) parts
    rwa [List.drop_left' run, List.drop_drop] at rest
  rw [← zeros, ← behind, List.takeWhile_append_dropWhile, List.take_append_drop]

theorem takeV6Whole {cs : List Char} {gs : List UInt16} {dotted : Bool}
    (found : takeGroups 8 true cs = (gs, dotted, rest)) (eight : gs.length = 8) :
    takeV6 cs = some (v6 gs eight, rest) := by
  simp [takeV6, found, eight]

theorem takeV6Short {cs inner : List Char} {head tail gs : List UInt16} {dotted : Bool}
    (found : takeGroups 8 true cs = (head, false, ':' :: ':' :: inner))
    (more : takeGroups (7 - head.length) true inner = (tail, dotted, rest)) (eight : gs.length = 8)
    (parts : gs = head ++ (List.replicate (8 - head.length - tail.length) 0 ++ tail))
    (short : head.length ≠ 8) : takeV6 cs = some (v6 gs eight, rest) := by
  subst parts
  simp only [takeV6, found, more, dif_neg short]
  rw [if_neg (by decide), dif_pos (by simpa using eight)]
  simp only [List.append_assoc]

theorem canonicalCases (gs : List UInt16) (eight : gs.length = 8) :
    (∃ g k, gs = [0, 0, 0, 0, 0, 0xFFFF, g, k] ∧ (v6 gs eight).canonical =
      v4 (UInt8.ofNat (g.toNat / 256)) (UInt8.ofNat g.toNat) (UInt8.ofNat (k.toNat / 256))
        (UInt8.ofNat k.toNat)) ∨ (v6 gs eight).canonical = v6 gs eight := by
  unfold canonical
  split
  · rename_i g k _ same
    cases same
    exact .inl ⟨g, k, rfl, rfl⟩
  · exact .inr rfl

theorem pairHalves (g : UInt16) : pair (UInt8.ofNat (g.toNat / 256)) (UInt8.ofNat g.toNat) = g := by
  have small : g.toNat < 65536 := g.toNat_lt
  apply UInt16.toNat_inj.mp
  simp only [pair, UInt8.toNat_ofNat', UInt16.toNat_ofNat']
  omega

inductive Written (gs : List UInt16) : List Char → Prop where
  | mapped {g k : UInt16} (same : gs = [0, 0, 0, 0, 0, 0xFFFF, g, k]) :
      Written gs (':' :: ':' :: (write 16 (0xFFFF : UInt16).toNat ++
        ':' :: dottedText (UInt8.ofNat (g.toNat / 256)) (UInt8.ofNat g.toNat) (UInt8.ofNat (k.toNat / 256))
          (UInt8.ofNat k.toNat)))
  | shortened {start len : Nat} (many : 1 < len) (run : zerosAt gs start = len) :
      Written gs (groupsText (gs.take start) ++ ':' :: ':' :: groupsText (gs.drop (start + len)))
  | full : Written gs (groupsText gs)

theorem toCharsWritten (gs : List UInt16) (eight : gs.length = 8) : Written gs (v6 gs eight).toChars := by
  rcases canonicalCases gs eight with ⟨g, k, same, folded⟩ | plain
  · rw [toChars, folded]
    exact .mapped same
  · rw [toChars, plain]
    dsimp only
    split
    · rename_i many
      have run := (longestZerosRun gs).resolve_left (by omega)
      exact .shortened many run
    · exact .full

theorem mappedRead (a b c d : UInt8) (stops : Stops 10 rest) :
    takeGroups 7 true (write 16 (0xFFFF : UInt16).toNat ++ ':' :: (dottedText a b c d ++ rest)) =
      ([0xFFFF, pair a b, pair c d], true, rest) := by
  have dotted : takeGroups 6 false (':' :: (dottedText a b c d ++ rest)) =
      ([pair a b, pair c d], true, rest) := by
    simp [takeGroups, afterColon, dottedRead a b c d stops]
  have next := takeGroupsNext 0xFFFF true 6 (.colon (dottedText a b c d ++ rest))
  rw [dotted] at next
  exact next

theorem Written.read {gs : List UInt16} {cs : List Char} (written : Written gs cs) (eight : gs.length = 8)
    (ends : Ends rest) : takeV6 (cs ++ rest) = some (v6 gs eight, rest) := by
  cases written with
  | @mapped g k same =>
    have tail := mappedRead (UInt8.ofNat (g.toNat / 256)) (UInt8.ofNat g.toNat) (UInt8.ofNat (k.toNat / 256))
      (UInt8.ofNat k.toNat) ends.closes.decimal
    rw [pairHalves, pairHalves] at tail
    rw [List.cons_append, List.cons_append, List.append_assoc, List.cons_append]
    exact takeV6Short (noFirstGroup (Ends.zeros _).closes 8) tail eight same (by simp)
  | @shortened start len many run =>
    have parts := zerosParts run
    have total := congrArg List.length parts
    rw [List.length_append, List.length_append, List.length_replicate, eight] at total
    have front : (gs.take start).length ≤ 8 := by omega
    have back : (gs.drop (start + len)).length ≤ 7 - (gs.take start).length := by omega
    have middle : 8 - (gs.take start).length - (gs.drop (start + len)).length = len := by omega
    rw [List.append_assoc]
    refine takeV6Short (takeGroupsRead front (.zeros _)) (takeGroupsRead back ends) eight ?_ (by omega)
    rwa [middle]
  | full => exact takeV6Whole (takeGroupsRead (Nat.le_of_eq eight) ends) eight

theorem Written.undotted {gs : List UInt16} {cs : List Char} (written : Written gs cs) (eight : gs.length = 8) :
    takeDotted cs = none := by
  have started : ∀ {hs tail}, hs ≠ [] → Ends tail → takeDotted (groupsText hs ++ tail) = none := by
    intro hs tail filled ends
    cases hs with
    | nil => contradiction
    | cons g hs =>
      rw [groupsTextCons, List.append_assoc]
      exact IpAddress.undotted (fun c => hexUndotted (n := g.toNat)) (ends.closes.tailText hs)
  cases written with
  | mapped => exact takeDottedNone (.colon _)
  | @shortened start len many run =>
    by_cases empty : gs.take start = []
    · rw [empty]
      exact takeDottedNone (.colon _)
    · exact started empty (.zeros _)
  | full =>
    have filled : gs ≠ [] := by
      rintro rfl
      contradiction
    simpa using started filled .nil

theorem charsRead (ip : IpAddress) : ofChars? ip.toChars = some ip := by
  cases ip with
  | v4 a b c d =>
    have read := dottedRead a b c d (show Stops 10 [] from nofun)
    rw [List.append_nil] at read
    rw [toChars, ofChars?, read]
  | v6 gs eight =>
    have written := toCharsWritten gs eight
    have read := written.read eight .nil
    rw [List.append_nil] at read
    rw [ofChars?, written.undotted eight, read]

theorem textRead (ip : IpAddress) : ofText? ip.text = some ip := by
  rw [text, ofText?, String.toList_ofList, charsRead]

def Plain (c : Char) : Prop := (∃ d, digit? 16 c = some d) ∨ c = ':' ∨ c = '.'

theorem plainSpelled (n : Nat) : ∀ c ∈ write 10 n, Plain c := by
  intro c member
  obtain ⟨ds, spells, _⟩ := decimalSpells n
  obtain ⟨d, digit⟩ := spells.digit member
  exact .inl ⟨d, digitWider digit (by decide)⟩

theorem plainDotted (a b c d : UInt8) : ∀ x ∈ dottedText a b c d, Plain x := by
  have dot : Plain '.' := .inr (.inr rfl)
  simp only [dottedText, List.forall_mem_append, List.forall_mem_cons]
  exact ⟨⟨⟨plainSpelled _, dot, plainSpelled _⟩, dot, plainSpelled _⟩, dot, plainSpelled _⟩

theorem plainGroup (g : UInt16) : ∀ c ∈ write 16 g.toNat, Plain c := fun _ member => .inl (hexChar member)

theorem plainGroups (gs : List UInt16) : ∀ c ∈ groupsText gs, Plain c := by
  cases gs with
  | nil => nofun
  | cons g gs =>
    rw [groupsTextCons, List.forall_mem_append]
    refine ⟨plainGroup g, ?_⟩
    intro c member
    obtain ⟨h, _, here⟩ := List.mem_flatMap.mp member
    exact List.forall_mem_cons.mpr ⟨.inr (.inl rfl), plainGroup h⟩ c here

theorem Written.plain {gs : List UInt16} {cs : List Char} (written : Written gs cs) : ∀ c ∈ cs, Plain c := by
  have colon : Plain ':' := .inr (.inl rfl)
  cases written with
  | mapped same =>
    simp only [List.forall_mem_cons, List.forall_mem_append]
    exact ⟨colon, colon, plainGroup 0xFFFF, colon, plainDotted _ _ _ _⟩
  | shortened many run =>
    simp only [List.forall_mem_cons, List.forall_mem_append]
    exact ⟨plainGroups _, colon, colon, plainGroups _⟩
  | full => exact plainGroups gs

theorem plainText (ip : IpAddress) : ∀ c ∈ ip.text.toList, Plain c := by
  rw [text, String.toList_ofList]
  cases ip with
  | v4 a b c d => exact plainDotted a b c d
  | v6 gs eight => exact (toCharsWritten gs eight).plain

def mapped (a b c d : UInt8) : IpAddress := v6 [0, 0, 0, 0, 0, 0xFFFF, pair a b, pair c d] rfl

inductive Folds : IpAddress → IpAddress → Prop where
  | mapped (a b c d : UInt8) : Folds (mapped a b c d) (v4 a b c d)
  | plain {ip : IpAddress} (other : ∀ a b c d, ip ≠ mapped a b c d) : Folds ip ip

theorem halvesPair (a b : UInt8) :
    UInt8.ofNat ((pair a b).toNat / 256) = a ∧ UInt8.ofNat (pair a b).toNat = b := by
  have high : a.toNat < 256 := a.toNat_lt
  have low : b.toNat < 256 := b.toNat_lt
  have whole : (pair a b).toNat = a.toNat * 256 + b.toNat := by
    rw [pair, UInt16.toNat_ofNat']
    omega
  rw [whole, ← UInt8.toNat_inj, ← UInt8.toNat_inj, UInt8.toNat_ofNat', UInt8.toNat_ofNat']
  omega

theorem canonicalMapped (a b c d : UInt8) : (mapped a b c d).canonical = v4 a b c d := by
  obtain ⟨first, second⟩ := halvesPair a b
  obtain ⟨third, fourth⟩ := halvesPair c d
  simp only [mapped, canonical, first, second, third, fourth]

theorem canonicalPlain {ip : IpAddress} (other : ∀ a b c d, ip ≠ mapped a b c d) : ip.canonical = ip := by
  cases ip with
  | v4 a b c d => rfl
  | v6 gs eight =>
    rcases canonicalCases gs eight with ⟨g, k, rfl, _⟩ | same
    · have whole : mapped (UInt8.ofNat (g.toNat / 256)) (UInt8.ofNat g.toNat) (UInt8.ofNat (k.toNat / 256))
          (UInt8.ofNat k.toNat) = v6 [0, 0, 0, 0, 0, 0xFFFF, g, k] eight := by
        simp only [mapped, pairHalves]
      exact absurd whole.symm (other _ _ _ _)
    · exact same

theorem foldsIff {ip x : IpAddress} : Folds ip x ↔ ip.canonical = x := by
  constructor
  · intro folds
    cases folds with
    | mapped a b c d => exact canonicalMapped a b c d
    | plain other => exact canonicalPlain other
  · rintro rfl
    by_cases stands : ∃ a b c d, ip = mapped a b c d
    · obtain ⟨a, b, c, d, rfl⟩ := stands
      rw [canonicalMapped]
      exact .mapped a b c d
    · have other : ∀ a b c d, ip ≠ mapped a b c d := by simpa using stands
      rw [canonicalPlain other]
      exact .plain other

def Alike (a b : IpAddress) : Prop := ∃ x, Folds a x ∧ Folds b x

theorem alikeIff {a b : IpAddress} : Alike a b ↔ a.canonical = b.canonical := by
  simp [Alike, foldsIff, eq_comm]

end FirewallAgent.IpAddress
