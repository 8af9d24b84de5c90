import FirewallAgent.Proofs.Store.Retention
import Mathlib.Control.Monad.Basic

/-! Texts that are read and written again. Reading takes many spellings that writing never produces, but
what was read once is read back from what is written for it, so a second round changes nothing. Whatever
is written can be read, and a store opens every file that an update has left. -/
namespace FirewallAgent.Store

variable {text : String} {d : Dictionary}

def rewrite (text : String) : Except StorageError String := (parse text).map serialize

theorem readSomewhere : (∃ text, parse text = .ok d) ↔ parse (serialize d) = .ok d := by
  rw [parseSerialize, Except.ok.injEq]
  constructor
  · rintro ⟨text, read⟩
    exact keptWhole.mpr (parsePlain read)
  · intro whole
    exact ⟨serialize d, by rw [parseSerialize, whole]⟩

theorem rewriteRead (read : parse text = .ok d) : rewrite text = .ok (serialize d) := by
  rw [rewrite, read]
  rfl

theorem rewriteReads {u : String} (ok : rewrite text = .ok u) :
    ∃ d, parse text = .ok d ∧ u = serialize d := by
  cases read : parse text with
  | error e =>
    rw [rewrite, read] at ok
    contradiction
  | ok d =>
    rw [rewriteRead read] at ok
    exact ⟨d, rfl, (Except.ok.inj ok).symm⟩

/- Records survive the writing of what was read, also in a spelling of their own: comments, blank lines,
records that a later one replaces and escapes that say nothing are dropped or respelled once, and then the
text stays as it is. -/
theorem rewritingKeepsRecords :
    (∀ text d, parse text = .ok d → parse (serialize d) = .ok d) ∧
    (∀ text u, rewrite text = .ok u → rewrite u = .ok u) ∧
    (∀ d, ∃ e, parse (serialize d) = .ok e) ∧
    ∀ (t u : FileTree) (h k : Handle) (c : Change) (turns : List Turn) (lockName name : String),
      perform t h (.update c) turns = (u, k, .ok ()) → Lock.openKey lockName = .ok name →
      ∃ l, openAt u h.path lockName = .ok l := by
  refine ⟨?_, ?_, ?_, ?_⟩
  · intro text d read
    exact readSomewhere.mp ⟨text, read⟩
  · intro text u ok
    obtain ⟨d, read, rfl⟩ := rewriteReads ok
    exact rewriteRead (readSomewhere.mp ⟨text, read⟩)
  · intro d
    exact ⟨withoutComments d, parseSerialize d⟩
  · intro t u h k c turns lockName name ok free
    exact ⟨_, (updateRereads ok).opens lockName name free⟩

def scribbled : String := "# note\r\n\r\na\\q=1\\\r\nb\\=c=old\nb\\=c=new\tone"

def tidied : String := "a\\\\q=1\\\\\nb\\=c=new\\tone\n"

theorem scribbledIsTidiedOnce : rewrite scribbled = .ok tidied ∧ rewrite tidied = .ok tidied ∧
    (∃ d, parse scribbled = .ok d ∧ parse tidied = .ok d ∧ d.get? "b=c" = some "new\tone") ∧
    ∃ u k l, set .fresh shelf "a" "1" = (u, k, .ok ()) ∧ openAt u "store" "/lock" = .ok l := by
  obtain ⟨reads, settles, _, opens⟩ := rewritingKeepsRecords
  have read : parse scribbled = .ok (.ofList [("a\\q", "1\\"), ("b=c", "new\tone")]) := by decide +kernel
  have written : serialize (.ofList [("a\\q", "1\\"), ("b=c", "new\tone")]) = tidied := by decide +kernel
  have first : rewrite scribbled = .ok tidied := written ▸ rewriteRead read
  have name : Lock.shape "/lock" = .segment "lock" := by decide +kernel
  obtain ⟨u, k, ok⟩ : ∃ u k, set .fresh shelf "a" "1" = (u, k, .ok ()) := ⟨_, _, rfl⟩
  obtain ⟨l, opened⟩ := opens .fresh u shelf k _ [] "/lock" "lock" ok (by rw [Lock.openKey, name])
  refine ⟨first, settles _ _ first, ⟨_, read, written ▸ reads _ _ read, ?_⟩, u, k, l, ok, opened⟩
  decide +kernel

end FirewallAgent.Store
