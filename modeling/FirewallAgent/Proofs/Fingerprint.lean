import FirewallAgent.Cache.Decision
import FirewallAgent.Cli.Check
import FirewallAgent.Fingerprint
import FirewallAgent.Proofs.Query
import Mathlib.Data.List.Pairwise

/-! What requests with one fingerprint have in common. Method, URL, source and agent are compared as they are,
the query parameters by what is written for them: separators inside a name or a value make different parameters
look alike. The order of parameters is lost in the query, but not in the URL, which is compared as well. -/
namespace FirewallAgent.Fingerprint

variable {a b r : Request} {ip agent : String} {u w : String}

/- No two headers have names that differ in letter case alone. -/
def Apart (headers : Dictionary) : Prop :=
  headers.entries.Pairwise fun x y => Text.sameIgnoringCase x.1 y.1 = false

instance (headers : Dictionary) : Decidable (Apart headers) := inferInstanceAs (Decidable (List.Pairwise _ _))

inductive ComesFrom (r : Request) : String → Prop where
  | told {i : ConnectionInfo} {c : Connection} {ip : String} (info : r.info = some i)
      (connection : i.connection = some c) (source : c.sourceIp = some ip) : ComesFrom r ip
  | untold (absent : ∀ i c, r.info = some i → i.connection = some c → c.sourceIp = none) : ComesFrom r ""

inductive NamesAgent (r : Request) : String → Prop where
  | named {name agent : String} (header : (name, agent) ∈ r.headers.entries)
      (same : Text.sameIgnoringCase name "user-agent" = true) : NamesAgent r agent
  | unnamed (absent : ∀ e ∈ r.headers.entries, Text.sameIgnoringCase e.1 "user-agent" = false) :
      NamesAgent r ""

structure Alike (a b : Request) : Prop where
  method : a.method = b.method
  url : a.url = b.url
  source : ∃ ip, ComesFrom a ip ∧ ComesFrom b ip
  agent : ∃ agent, NamesAgent a agent ∧ NamesAgent b agent

theorem comesFromIff : ComesFrom r ip ↔ (sourceIpOf r).getD "" = ip := by
  constructor
  · intro source
    cases source with
    | told info connection source => simp [sourceIpOf, info, connection, source]
    | untold absent =>
      cases info : r.info with
      | none => simp [sourceIpOf, info]
      | some i =>
        cases connection : i.connection with
        | none => simp [sourceIpOf, info, connection]
        | some c => simp [sourceIpOf, info, connection, absent i c info connection]
  · rintro rfl
    cases told : sourceIpOf r with
    | none =>
      refine .untold fun i c info connection => ?_
      simpa [sourceIpOf, info, connection] using told
    | some ip =>
      simp only [sourceIpOf, bind, Option.bind_eq_some_iff] at told
      obtain ⟨i, info, c, connection, source⟩ := told
      exact .told info connection source

theorem foldedSame {x y z : String} (left : Text.sameIgnoringCase x z = true)
    (right : Text.sameIgnoringCase y z = true) : Text.sameIgnoringCase x y = true := by
  rw [Text.sameIgnoringCaseIff] at *
  exact left.trans right.symm

theorem headerAlone {headers : Dictionary} (apart : Apart headers) {x y : String × String}
    (hx : x ∈ headers.entries) (hy : y ∈ headers.entries)
    (same : Text.sameIgnoringCase x.1 y.1 = true) : x = y := by
  have swaps : Std.Symm fun x y : String × String => Text.sameIgnoringCase x.1 y.1 = false :=
    ⟨fun x y other => Bool.beq_comm.trans other⟩
  by_contra different
  exact absurd same (by simp [List.Pairwise.forall apart hx hy different])

theorem namesAgentIff (apart : Apart r.headers) : NamesAgent r agent ↔ (userAgentOf r).getD "" = agent := by
  constructor
  · intro names
    cases names with
    | @named name _ header same =>
      obtain ⟨e, found⟩ : ∃ e, r.headers.entries.find? (fun e => Text.sameIgnoringCase e.1 "user-agent") = some e :=
        Option.isSome_iff_exists.mp (List.find?_isSome.mpr ⟨_, header, same⟩)
      have one : e = (name, agent) := by
        have alike : Text.sameIgnoringCase e.1 "user-agent" = true := by simpa using List.find?_some found
        exact headerAlone apart (List.mem_of_find?_eq_some found) header (foldedSame alike same)
      simp [userAgentOf, found, one]
    | unnamed absent =>
      have missing : r.headers.entries.find? (fun e => Text.sameIgnoringCase e.1 "user-agent") = none := by
        simpa using absent
      simp [userAgentOf, missing]
  · rintro rfl
    cases found : r.headers.entries.find? (fun e => Text.sameIgnoringCase e.1 "user-agent") with
    | none =>
      simp only [userAgentOf, found]
      exact .unnamed (by simpa using found)
    | some e =>
      simp only [userAgentOf, found]
      exact .named (List.mem_of_find?_eq_some found) (by simpa using List.find?_some found)

theorem alikeIff (left : Apart a.headers) (right : Apart b.headers) :
    Alike a b ↔ a.method = b.method ∧ a.url = b.url ∧
      (sourceIpOf a).getD "" = (sourceIpOf b).getD "" ∧ (userAgentOf a).getD "" = (userAgentOf b).getD "" := by
  constructor
  · rintro ⟨method, url, ⟨ip, here, there⟩, agent, this, that⟩
    refine ⟨method, url, ?_, ?_⟩
    · rw [comesFromIff.mp here, comesFromIff.mp there]
    · rw [(namesAgentIff left).mp this, (namesAgentIff right).mp that]
  · rintro ⟨method, url, source, agent⟩
    exact ⟨method, url, ⟨_, comesFromIff.mpr source, comesFromIff.mpr rfl⟩,
      ⟨_, (namesAgentIff left).mpr agent, (namesAgentIff right).mpr rfl⟩⟩

theorem ofRequestSame (left : Apart a.headers) (right : Apart b.headers) :
    ofRequest a = ofRequest b ↔ Alike a b ∧ Query.shreds a.query = Query.shreds b.query := by
  rw [alikeIff left right, ← Query.serializedSame, ofRequest, ofRequest, mk.injEq]
  tauto

/- Requests share a fingerprint if they are alike and their parameters make the same pieces when everything is
cut at ampersands. If no separator stands inside a name or a value, as in all that is read from a URL, then
these parameters are the same. -/
theorem requestsShareShreds (left : Apart a.headers) (right : Apart b.headers) :
    (ofRequest a = ofRequest b ↔ Alike a b ∧ Query.shreds a.query = Query.shreds b.query) ∧
    (∀ d, Query.Plain d ↔ ∃ url, Query.parse url = d) ∧
    (Query.Plain a.query → Query.Plain b.query →
      (ofRequest a = ofRequest b ↔ Alike a b ∧ a.query = b.query)) := by
  refine ⟨ofRequestSame left right, fun d => Query.plainIff, ?_⟩
  intro plain plain'
  rw [ofRequestSame left right, Query.plainSame plain plain']

def bracketed : Request :=
  { url := "/p", method := "GET", query := .ofList [("a", "1=1"), ("b", "?")],
    headers := .ofList [("Accept", "*"), ("USER-AGENT", "curl")] }

def bracketedAgain : Request :=
  { url := "/p", method := "GET", query := Query.parse "/?b=?&&a=1=1",
    headers := .ofList [("user-agent", "curl")],
    info := some { connection := some { sourceIp := some "" } } }

theorem respelledRequestIsKnown :
    Apart bracketed.headers ∧ Apart bracketedAgain.headers ∧
    Query.Plain bracketed.query ∧ Query.Plain bracketedAgain.query ∧
    Alike bracketed bracketedAgain ∧ bracketed.query = bracketedAgain.query := by
  have left : Apart bracketed.headers := by decide +kernel
  have right : Apart bracketedAgain.headers := by decide +kernel
  have plain : Query.Plain bracketed.query := by decide +kernel
  have plain' : Query.Plain bracketedAgain.query := by decide +kernel
  have same : ofRequest bracketed = ofRequest bracketedAgain := by decide +kernel
  obtain ⟨alike, query⟩ := ((requestsShareShreds left right).2.2 plain plain').mp same
  exact ⟨left, right, plain, plain', alike, query⟩

def oneParameter : Request := { url := "/p", method := "GET", query := .ofList [("a", "1&b=2")] }

def twoParameters : Request := { url := "/p", method := "GET", query := .ofList [("a", "1"), ("b", "2")] }

theorem differentParametersShareKey :
    Apart oneParameter.headers ∧ Apart twoParameters.headers ∧ oneParameter.query ≠ twoParameters.query ∧
    ofRequest oneParameter = ofRequest twoParameters ∧
    (({ enabled := true } : DecisionCache Fingerprint).put (ofRequest oneParameter) .allow).get
      (ofRequest twoParameters) = some .allow := by
  have same : ofRequest oneParameter = ofRequest twoParameters := by decide +kernel
  refine ⟨by decide +kernel, by decide +kernel, by decide +kernel, same, ?_⟩
  rw [same]
  rfl

def asking (r : Request) (url : String) : Request := { r with url, query := Query.parse url }

structure Reordered (u w : String) : Prop where
  place : u.toList.takeWhile (· ≠ '?') = w.toList.takeWhile (· ≠ '?')
  pieces : (Query.written u).Perm (Query.written w)
  distinct : ((Query.written u).map Query.nameOf).Nodup

theorem Reordered.parse (h : Reordered u w) : Query.parse u = Query.parse w := by
  rw [Query.parsedWritten, Query.parsedWritten]
  refine Dictionary.ofListPerm (h.pieces.map _) ?_
  rw [List.pairwise_map]
  exact List.pairwise_map.mp h.distinct

theorem requestAsking (o : Cli.CheckOptions) (info : Option ConnectionInfo) (url : String) :
    Cli.Check.request { o with url } info = (Cli.Check.request o info).map (asking · url) := by
  unfold Cli.Check.request
  cases o.headers.foldlM Cli.Check.addHeader (Dictionary.empty.insert "User-Agent" o.userAgent) with
  | error e => rfl
  | ok headers => rfl

theorem askingReordered (r : Request) (h : Reordered u w) :
    ofRequest (asking r w) = { ofRequest (asking r u) with url := w } := by
  simp [ofRequest, asking, h.parse, sourceIpOf, userAgentOf]

/- Nothing of a fingerprint but its URL tells in which order the parameters came. Under one URL they may come in
any order, but a request that is made for its URL, as a check makes it, has another fingerprint if they do. -/
theorem orderShowsInUrlAlone (r : Request) (h : Reordered u w) :
    ofRequest (asking r w) = { ofRequest (asking r u) with url := w } ∧
    (∀ url, ofRequest { asking r u with url } = ofRequest { asking r w with url }) ∧
    (ofRequest (asking r u) = ofRequest (asking r w) ↔ u = w) ∧
    ∀ (o : Cli.CheckOptions) (info : Option ConnectionInfo) (a : Request),
      Cli.Check.request { o with url := u } info = .ok a →
      ∃ b, Cli.Check.request { o with url := w } info = .ok b ∧ ofRequest b = { ofRequest a with url := w } := by
  refine ⟨askingReordered r h, ?_, ⟨congrArg url, congrArg fun url => ofRequest (asking r url)⟩, ?_⟩
  · intro url
    rw [asking, asking, h.parse]
  · intro o info a made
    rw [requestAsking] at made
    obtain ⟨r, found, rfl⟩ : ∃ r, Cli.Check.request o info = .ok r ∧ asking r u = a := by
      cases found : Cli.Check.request o info with
      | error e => simp [found, Except.map] at made
      | ok r => exact ⟨r, rfl, by simpa [found, Except.map] using made⟩
    refine ⟨asking r w, ?_, askingReordered r h⟩
    rw [requestAsking, found]
    rfl

theorem reorderedSearch : Reordered "/p?x=1&y=2" "/p?y=2&x=1" :=
  ⟨by decide +kernel, by decide +kernel, by decide +kernel⟩

def searchOptions : Cli.CheckOptions where
  url := "/p?x=1&y=2"
  method := "get"
  source := ⟨.v4 127 0 0 1, 0, 1⟩
  destination := ⟨.v4 127 0 0 1, 0, 80⟩
  userAgent := "curl"
  headers := []
  times := 1
  patience := 1

theorem searchesDifferInUrl :
    Reordered "/p?x=1&y=2" "/p?y=2&x=1" ∧
    ofRequest (asking {} "/p?y=2&x=1") = { ofRequest (asking {} "/p?x=1&y=2") with url := "/p?y=2&x=1" } ∧
    ∃ a, Cli.Check.request searchOptions none = .ok a ∧
      ∃ b, Cli.Check.request { searchOptions with url := "/p?y=2&x=1" } none = .ok b ∧
        ofRequest b = { ofRequest a with url := "/p?y=2&x=1" } := by
  obtain ⟨told, _, _, checked⟩ := orderShowsInUrlAlone {} reorderedSearch
  obtain ⟨a, made⟩ : ∃ a, Cli.Check.request searchOptions none = .ok a := ⟨_, rfl⟩
  exact ⟨reorderedSearch, told, a, made, checked searchOptions none a made⟩

theorem reorderedSearchIsAskedAgain :
    Reordered "/p?x=1&y=2" "/p?y=2&x=1" ∧
    ofRequest (asking {} "/p?x=1&y=2") ≠ ofRequest (asking {} "/p?y=2&x=1") ∧
    (({ enabled := true } : DecisionCache Fingerprint).put (ofRequest (asking {} "/p?x=1&y=2")) .allow).get
      (ofRequest (asking {} "/p?y=2&x=1")) = none := by
  have other : ofRequest (asking {} "/p?x=1&y=2") ≠ ofRequest (asking {} "/p?y=2&x=1") := by
    intro same
    exact absurd (congrArg url same) (by decide)
  refine ⟨reorderedSearch, other, ?_⟩
  simp [DecisionCache.get, DecisionCache.put, DecisionCache.find?, DecisionCache.without, other]

end FirewallAgent.Fingerprint
