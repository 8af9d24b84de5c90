import FirewallAgent.Config.Yaml
import FirewallAgent.Proofs.Span
import FirewallAgent.Proofs.Yaml.Writer

/-! Settings survive their own YAML. Each setting that is present takes one line, and reading that line gives
the setting its value again; a setting without a line keeps its default, which is what it had. -/
namespace FirewallAgent.Config
open FirewallAgent.Yaml (Entry Node Scalar ScalarStyle)
open FirewallAgent.Yaml.Writer (isVisible Written)
open FirewallAgent.Text

def texts (c : Config) : List String :=
  [c.serverAddr, c.installationCode, c.storePath, c.lockName] ++ c.certificatePath.toList ++
    c.deviceUuid.toList

def isLegible (c : Config) : Bool := c.texts.all fun t => t.toList.all isVisible

def adopt (c d : Config) : Setting → Config
  | .serverAddr => { d with serverAddr := c.serverAddr }
  | .installationCode => { d with installationCode := c.installationCode }
  | .tls => { d with tls := c.tls }
  | .certificatePath => { d with certificatePath := c.certificatePath }
  | .fallback => { d with fallback := c.fallback }
  | .connectTimeout => { d with connectTimeout := c.connectTimeout }
  | .callTimeout => { d with callTimeout := c.callTimeout }
  | .tokenTimeout => { d with tokenTimeout := c.tokenTimeout }
  | .backoff => { d with backoff := c.backoff }
  | .cacheCapacity => { d with cacheCapacity := c.cacheCapacity }
  | .storePath => { d with storePath := c.storePath }
  | .lockName => { d with lockName := c.lockName }
  | .deviceUuid => { d with deviceUuid := c.deviceUuid }

variable {c d : Config} {s : Setting} {t : String} {style : ScalarStyle}

theorem textRead : text? (.scalar ⟨t, style, none⟩) = some t := rfl

theorem optionalRead (clear : style = .plain → Yaml.Resolution.isAmbiguous t.toList = false) :
    optionalText? (.scalar ⟨t, style, none⟩) = some (some t) := by
  by_cases plain : style = .plain
  · have clear := clear plain
    simp only [Yaml.Resolution.isAmbiguous, Bool.or_eq_false_iff] at clear
    have any : t ≠ "" := by
      rintro rfl
      exact Bool.false_ne_true clear.1.1.1.1.1.1.symm
    simp [optionalText?, Node.scalar?, plain, any, clear.1.1.1.1.1.2]
  · simp [optionalText?, Node.scalar?, plain]

theorem flagRead (b : Bool) : flag? (.scalar ⟨flagText b, .plain, none⟩) = some b := by
  cases b <;> decide

theorem decimalRead {n most : Nat} (fits : n ≤ most) :
    Yaml.Resolution.natural? most (Numeral.write 10 n) = some n := by
  have digit {x : Char} (mem : x ∈ Numeral.write 10 n) (other : x.isDigit = false) : False :=
    Bool.false_ne_true (other.symm.trans (Numeral.decimalChar mem))
  have plus : Yaml.Resolution.dropPlus (Numeral.write 10 n) = Numeral.write 10 n := by
    refine if_neg fun first => digit (List.mem_of_head? first) rfl
  have based : Yaml.Resolution.based? (Numeral.write 10 n) = none := by
    unfold Yaml.Resolution.based?
    split
    · exact (digit (x := 'x') (by simp [*]) rfl).elim
    · exact (digit (x := 'o') (by simp [*]) rfl).elim
    · exact (digit (x := 'b') (by simp [*]) rfl).elim
    · rfl
  have zeroless : Yaml.Resolution.hasLeadingZero (Numeral.write 10 n) = false := by
    have unsigned : Yaml.Resolution.dropSign (Numeral.write 10 n) = Numeral.write 10 n := by
      unfold Yaml.Resolution.dropSign
      split
      · rename_i sign rest whole
        refine if_neg fun signed => ?_
        rcases signed with rfl | rfl <;> exact digit (by rw [whole]; exact List.mem_cons_self) rfl
      · simp [*]
    rw [Yaml.Resolution.hasLeadingZero, unsigned]
    split
    · rename_i d rest whole
      by_cases zero : n = 0
      · subst zero
        cases whole
      · exact absurd (by rw [whole]; rfl) (Numeral.leadingDigit (Nat.pos_of_ne_zero zero))
    · rfl
  simp [Yaml.Resolution.natural?, plus, based, zeroless, Numeral.allDecimal, fits]

theorem countRead (n : UInt64) : count? (.scalar ⟨Numeral.decimal n.toNat, .plain, none⟩) = some n := by
  have read := decimalRead (Nat.le_sub_one_of_lt n.toNat_lt_size)
  have value : count? (.scalar ⟨Numeral.decimal n.toNat, .plain, none⟩) =
      (Yaml.Resolution.natural? (UInt64.size - 1) (Numeral.decimal n.toNat).toList).map UInt64.ofNat := rfl
  rw [value, Numeral.decimal, String.toList_ofList, read, Option.map_some, UInt64.ofNat_toNat]

theorem spanRead (s : Span) : span? (.scalar ⟨s.text, style, none⟩) = some s := s.textReadBack

structure Says (c : Config) (s : Setting) (shown : Shown) (e : Entry) : Prop where
  fine : e.Fine
  key : e.key = s.key.toList
  chars : e.chars = entryChars s shown
  back : ∀ d : Config, d.set? s e.nodes.2 = some (c.adopt d s)

theorem keysNamed (s : Setting) : Yaml.Layout.isKey s.key.toList = true ∧
    s.key.toList.all Entry.isSeen = true := by
  cases s <;> decide +kernel

theorem said {shown : Shown} {written : List Char}
    (line : entryChars s shown = s.key.toList ++ ':' :: ' ' :: (written ++ ['\n']))
    (scans : Written style t.toList written)
    (back : ∀ d, set? d s (.scalar ⟨t, style, none⟩) = some (c.adopt d s)) : ∃ e, Says c s shown e := by
  obtain ⟨named, seen⟩ := keysNamed s
  refine ⟨⟨s.key.toList, style, t.toList, written⟩, ⟨named, scans.scanned, ?_⟩, rfl, line.symm, fun d => ?_⟩
  · rw [List.all_append, seen, Bool.true_and]
    exact List.all_eq_true.mpr scans.seen
  · have value : (Entry.nodes ⟨s.key.toList, style, t.toList, written⟩).2 = .scalar ⟨t, style, none⟩ := by
      simp [Entry.nodes]
    rw [value, back]

theorem textSaid (visible : ∀ x ∈ t.toList, isVisible x = true)
    (back : ∀ d style, (style = .plain → Yaml.Resolution.isAmbiguous t.toList = false) →
      set? d s (.scalar ⟨t, style, none⟩) = some (c.adopt d s)) : ∃ e, Says c s (.text t) e := by
  obtain ⟨written, line, scans⟩ := Yaml.Writer.writtenBack visible
  refine said ?_ scans fun d => back d _ fun plain => Yaml.Writer.styleUnambiguous visible plain
  rw [entryChars, Yaml.Writer.entry, line]

theorem bareSaid (simple : ∀ x ∈ t.toList, Yaml.Writer.isSimple x = true) (any : t.toList ≠ [])
    (back : ∀ d, set? d s (.scalar ⟨t, .plain, none⟩) = some (c.adopt d s)) : ∃ e, Says c s (.bare t) e := by
  refine said ?_ (Yaml.Writer.plainWritten (Yaml.Writer.simpleAllowed simple) any) back
  simp [entryChars]

theorem digitSimple {x : Char} (digit : x.isDigit = true) : Yaml.Writer.isSimple x = true := by
  unfold Char.isDigit at digit
  rw [Bool.and_eq_true, decide_eq_true_eq, decide_eq_true_eq] at digit
  have low : 0x30 ≤ x.toNat := UInt32.le_iff_toNat_le.mp digit.1
  have high : x.toNat ≤ 0x39 := UInt32.le_iff_toNat_le.mp digit.2
  simp [Yaml.Writer.isSimple, low, high]

theorem spanVisible (span : Span) : ∀ x ∈ span.text.toList, isVisible x = true := by
  have within {a b x : Char} (range : a ≤ x ∧ x ≤ b) (low : 0x20 ≤ a.toNat) (high : b.toNat ≤ 0x7E) :
      isVisible x = true :=
    Yaml.Writer.asciiVisible (Nat.le_trans low (Yaml.Writer.codesOrdered range.1))
      (Nat.le_trans (Yaml.Writer.codesOrdered range.2) high)
  intro x mem
  rcases span.textShape x mem with digit | letter | rfl
  · have simple := digitSimple digit
    simp only [Yaml.Writer.isSimple, Bool.or_eq_true, Bool.and_eq_true, decide_eq_true_eq] at simple
    exact Yaml.Writer.asciiVisible (by omega) (by omega)
  · simp only [Span.isUnitChar, Bool.or_eq_true, Bool.and_eq_true, decide_eq_true_eq, beq_iff_eq] at letter
    rcases letter with (small | capital) | rfl
    · exact within small (by decide) (by decide)
    · exact within capital (by decide) (by decide)
    · rfl
  · rfl

theorem spanSaid {span : Span}
    (back : ∀ d style, set? d s (.scalar ⟨span.text, style, none⟩) = some (c.adopt d s)) :
    ∃ e, Says c s (.text span.text) e :=
  textSaid (spanVisible span) fun d style _ => back d style

theorem shownSaid (legible : c.isLegible = true) {shown : Shown} (present : c.shown? s = some shown) :
    ∃ e, Says c s shown e := by
  have visible (t) (mem : t ∈ c.texts) : ∀ x ∈ t.toList, isVisible x = true :=
    List.all_eq_true.mp (List.all_eq_true.mp legible t mem)
  cases s with
  | serverAddr =>
    cases present
    exact textSaid (visible c.serverAddr (by simp [texts])) fun _ _ _ => rfl
  | installationCode =>
    cases present
    exact textSaid (visible c.installationCode (by simp [texts])) fun _ _ _ => rfl
  | tls =>
    cases present
    refine bareSaid (List.all_eq_true.mp ?_) ?_ fun d => ?_
    · cases c.tls <;> rfl
    · cases c.tls <;> exact List.cons_ne_nil _ _
    · rw [set?, flagRead]
      rfl
  | certificatePath =>
    obtain ⟨t, path, rfl⟩ := Option.map_eq_some_iff.mp present
    refine textSaid (visible t (by simp [texts, path])) fun d style clear => ?_
    rw [set?, optionalRead clear, adopt, path]
    rfl
  | fallback =>
    cases present
    refine textSaid (List.all_eq_true.mp ?_) fun d style _ => ?_
    · cases c.fallback <;> rfl
    · rw [set?, textRead, Option.map_some, Fallback.ofTextOfText]
      rfl
  | connectTimeout =>
    cases present
    exact spanSaid fun d style => by rw [set?, spanRead]; rfl
  | callTimeout =>
    cases present
    exact spanSaid fun d style => by rw [set?, spanRead]; rfl
  | tokenTimeout =>
    cases present
    exact spanSaid fun d style => by rw [set?, spanRead]; rfl
  | backoff =>
    cases present
    exact spanSaid fun d style => by rw [set?, spanRead]; rfl
  | cacheCapacity =>
    cases present
    refine bareSaid (fun x mem => ?_) ?_ fun d => ?_
    · rw [Numeral.decimal, String.toList_ofList] at mem
      exact digitSimple (Numeral.decimalChar mem)
    · rw [Numeral.decimal, String.toList_ofList]
      exact Nat.toDigits_ne_nil
    · rw [set?, countRead]
      rfl
  | storePath =>
    cases present
    exact textSaid (visible c.storePath (by simp [texts])) fun _ _ _ => rfl
  | lockName =>
    cases present
    exact textSaid (visible c.lockName (by simp [texts])) fun _ _ _ => rfl
  | deviceUuid =>
    obtain ⟨t, uuid, rfl⟩ := Option.map_eq_some_iff.mp present
    refine textSaid (visible t (by simp [texts, uuid])) fun d style clear => ?_
    rw [set?, optionalRead clear, adopt, uuid]
    rfl

def lines (c : Config) (s : Setting) : List Char := ((c.shown? s).map (entryChars s)).getD []

def adoptShown (c d : Config) (s : Setting) : Config := if (c.shown? s).isSome then c.adopt d s else d

theorem saidRead {shown : Shown} {e : Entry} (tells : Says c s shown e) {seen : List Setting}
    (fresh : s ∉ seen) (rest : List (Node × Node)) :
    ofEntries? d seen (e.nodes :: rest) = ofEntries? (c.adopt d s) (s :: seen) rest := by
  have key : text? e.nodes.1 = some s.key := by
    simp [Entry.nodes, text?, Node.scalar?, tells.key]
  rw [ofEntries?, key]
  simp only [Option.bind_eq_bind, Option.bind_some, Setting.ofKeyKey, if_neg fresh, tells.back]

theorem settingsSaid (legible : c.isLegible = true) (settings : List Setting) :
    ∃ es : List Entry, (∀ e ∈ es, e.Fine) ∧ es.flatMap Entry.chars = settings.flatMap c.lines ∧
      ∀ d seen, settings.Nodup → (∀ s ∈ settings, s ∉ seen) →
        ofEntries? d seen (es.map Entry.nodes) = some (settings.foldl c.adoptShown d) := by
  induction settings with
  | nil => exact ⟨[], by simp, rfl, fun d seen _ _ => rfl⟩
  | cons s settings ih =>
    obtain ⟨es, fine, chars, back⟩ := ih
    cases present : c.shown? s with
    | none =>
      refine ⟨es, fine, ?_, fun d seen once fresh => ?_⟩
      · rw [chars, List.flatMap_cons, lines, present]
        rfl
      · have skipped : c.adoptShown d s = d := by simp [adoptShown, present]
        rw [List.foldl_cons, skipped]
        exact back d seen (List.nodup_cons.mp once).2 fun t mem => fresh t (List.mem_cons_of_mem s mem)
    | some shown =>
      obtain ⟨e, tells⟩ := shownSaid legible present
      refine ⟨e :: es, ?_, ?_, fun d seen once fresh => ?_⟩
      · intro f mem
        rcases List.mem_cons.mp mem with rfl | mem
        · exact tells.fine
        · exact fine f mem
      · rw [List.flatMap_cons, List.flatMap_cons, chars, tells.chars, lines, present]
        rfl
      · have adopted : c.adoptShown d s = c.adopt d s := by simp [adoptShown, present]
        obtain ⟨other, once⟩ := List.nodup_cons.mp once
        rw [List.map_cons, saidRead tells (fresh s List.mem_cons_self), List.foldl_cons, adopted]
        refine back _ _ once fun t mem => ?_
        rw [List.mem_cons, not_or]
        refine ⟨?_, fresh t (List.mem_cons_of_mem s mem)⟩
        rintro rfl
        exact other mem

theorem allAdopted (c : Config) : Setting.all.foldl c.adoptShown {} = c := by
  obtain ⟨_, _, _, certificatePath, _, _, _, _, _, _, _, _, deviceUuid⟩ := c
  cases certificatePath <;> cases deviceUuid <;> rfl

theorem yamlReadsBack (c : Config) (legible : c.isLegible = true) : ofYaml c.toYaml = .ok c := by
  obtain ⟨es, fine, chars, back⟩ := settingsSaid legible Setting.all
  have any : es ≠ [] := by
    rintro rfl
    have first : c.lines .serverAddr ≠ [] := by simp [lines, shown?, entryChars, Yaml.Writer.entry]
    exact first (List.append_eq_nil_iff.mp chars.symm).1
  have text : c.toYaml = String.ofList (es.flatMap Entry.chars) := congrArg String.ofList chars.symm
  rw [ofYaml, ofYaml?, text, Yaml.mappingReadBack fine any, Option.bind_some, ofNode?,
    back {} [] (by decide) (by simp), allAdopted]

def awkward : Config where
  serverAddr := "- [a]: \"b\" # c"
  installationCode := "007"
  tls := true
  certificatePath := some ""
  fallback := .allow
  connectTimeout := ⟨18446744073709551615, ⟨999999999, by decide⟩⟩
  callTimeout := ⟨0, ⟨1, by decide⟩⟩
  tokenTimeout := .ofSeconds 0
  backoff := ⟨93784, ⟨5006007, by decide⟩⟩
  cacheCapacity := 18446744073709551615
  storePath := " 'true' "
  lockName := "~"
  deviceUuid := some "null: é\ufeff😀\\"

theorem awkwardReadsBack : awkward.isLegible = true ∧ ofYaml awkward.toYaml = .ok awkward :=
  ⟨by decide +kernel, yamlReadsBack awkward (by decide +kernel)⟩

end FirewallAgent.Config
