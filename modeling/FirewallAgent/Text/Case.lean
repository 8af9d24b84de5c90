/-!
Letter case of ASCII text. Characters outside ASCII have no case here and match only themselves.
-/
namespace FirewallAgent.Text

def sameFolded (a b : List Char) : Bool := a.map Char.toLower == b.map Char.toLower

def sameIgnoringCase (a b : String) : Bool := sameFolded a.toList b.toList

theorem sameIgnoringCaseIff {a b : String} :
    sameIgnoringCase a b = true ↔ a.toList.map Char.toLower = b.toList.map Char.toLower := by
  simp [sameIgnoringCase, sameFolded]

end FirewallAgent.Text
