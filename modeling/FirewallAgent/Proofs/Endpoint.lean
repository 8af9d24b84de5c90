import FirewallAgent.Endpoint

/-! Over which scheme an endpoint is reached. An address without a scheme gets the one that its identity
asks for. One with a scheme keeps it, and then it is the address that decides about TLS. -/
namespace FirewallAgent

namespace Uri

def secureScheme : List Char := ['h', 't', 't', 'p', 's']

def opensSecure (cs : List Char) : Bool :=
  Text.sameFolded (cs.take 8) (secureScheme ++ [':', '/', '/'])

theorem lowerSchemeChar {c : Char} (h : isSchemeChar c.toLower = true) : isSchemeChar c = true := by
  unfold Char.toLower at h
  split at h
  · rename_i upper
    have letter : c.isAlpha = true := Bool.or_eq_true_iff.mpr (.inl (decide_eq_true upper))
    simp [isSchemeChar, Char.isAlphanum, letter]
  · exact h

theorem colonNoSchemeChar {c : Char} (h : isSchemeChar c = true) : c ≠ ':' := by
  rintro rfl
  exact absurd h (by decide)

theorem takeSchemeJoined {s : List Char} (plain : ∀ c ∈ s, isSchemeChar c = true) (rest : List Char) :
    takeScheme (s ++ ':' :: '/' :: '/' :: rest) = some (s, rest) := by
  induction s with
  | nil => rfl
  | cons c s ih =>
    have first := plain c List.mem_cons_self
    have later := ih fun d hd => plain d (List.mem_cons_of_mem c hd)
    rw [List.cons_append, takeScheme.eq_2 _ _ fun _ same => absurd same (colonNoSchemeChar first),
      if_pos first, later]
    rfl

theorem takeSchemeParts {cs s rest : List Char} (found : takeScheme cs = some (s, rest)) :
    cs = s ++ ':' :: '/' :: '/' :: rest := by
  fun_induction takeScheme cs generalizing s with
  | case1 rest => cases found; rfl
  | case2 c tail _ _ ih =>
    obtain ⟨p, later, same⟩ := Option.map_eq_some_iff.mp found
    cases same
    rw [List.cons_append, ← ih later]
  | case3 => contradiction
  | case4 => contradiction

theorem lowerSign {c d : Char} (sign : d = ':' ∨ d = '/') (h : c.toLower = d) : c = d := by
  unfold Char.toLower at h
  split at h
  · rename_i upper
    have shifted : (c.val + 32).toNat = d.val.toNat := congrArg (fun x : Char => x.val.toNat) h
    have low : 65 ≤ c.toNat ∧ c.toNat ≤ 90 := by simpa [UInt32.le_iff_toNat_le] using upper
    rw [UInt32.toNat_add] at shifted
    rcases sign with rfl | rfl
    all_goals simp at shifted; omega
  · exact h

theorem opensSecureScheme {cs : List Char} : opensSecure cs = true ↔
    ∃ s rest, takeScheme cs = some (s, rest) ∧ s.map Char.toLower = secureScheme := by
  have fixed : (secureScheme ++ [':', '/', '/']).map Char.toLower = secureScheme ++ [':', '/', '/'] := by
    decide
  rw [opensSecure, Text.sameFolded, beq_iff_eq, fixed]
  refine ⟨?_, ?_⟩
  · intro opens
    obtain ⟨s, signs, parts, lower, rest⟩ := List.map_eq_append_iff.mp opens
    obtain ⟨c, signs, rfl, colon, rest⟩ := List.map_eq_cons_iff.mp rest
    obtain ⟨d, signs, rfl, slash, rest⟩ := List.map_eq_cons_iff.mp rest
    obtain ⟨e, signs, rfl, second, rest⟩ := List.map_eq_cons_iff.mp rest
    cases List.map_eq_nil_iff.mp rest
    cases lowerSign (.inl rfl) colon
    cases lowerSign (.inr rfl) slash
    cases lowerSign (.inr rfl) second
    have plain : ∀ c ∈ s, isSchemeChar c = true := by
      intro c hc
      have known : secureScheme.all isSchemeChar = true := rfl
      exact lowerSchemeChar (List.all_eq_true.mp known _ (lower ▸ List.mem_map_of_mem hc))
    have joined := List.take_append_drop 8 cs
    rw [parts, List.append_assoc] at joined
    exact ⟨s, cs.drop 8, (congrArg takeScheme joined.symm).trans (takeSchemeJoined plain _), lower⟩
  · rintro ⟨s, rest, found, lower⟩
    have five : s.length = 5 := by rw [← List.length_map Char.toLower, lower]; rfl
    rw [takeSchemeParts found, List.take_append, five, List.take_of_length_le (by omega), List.map_append,
      lower]
    rfl

theorem normalSchemeSecure {s : List Char} :
    normalScheme s = secureScheme ↔ s.map Char.toLower = secureScheme := by
  unfold normalScheme
  dsimp only
  split
  · exact .rfl
  · rename_i other
    refine ⟨?_, fun lower => absurd (.inr lower) other⟩
    rintro rfl
    decide

/- A text that opens with the scheme of TLS has a scheme, since none is that long or that short. -/
theorem schemeSecure {cs rest : List Char} {s : Option (List Char)} (found : scheme? cs = some (s, rest)) :
    s = some secureScheme ↔ opensSecure cs = true := by
  rw [opensSecureScheme]
  unfold scheme? at found
  cases taken : takeScheme cs with
  | none =>
    rw [taken] at found
    cases found
    simp
  | some p =>
    obtain ⟨t, u⟩ := p
    simp only [taken] at found
    split at found
    · rename_i short
      cases found
      refine ⟨nofun, ?_⟩
      rintro ⟨t', u', same, lower⟩
      cases same
      have five : t.length = 5 := by rw [← List.length_map Char.toLower, lower]; rfl
      have whole := congrArg List.length (takeSchemeParts taken)
      rw [List.length_append] at whole
      omega
    · split at found
      · contradiction
      · cases found
        rw [Option.some.injEq, normalSchemeSecure]
        refine ⟨fun lower => ⟨t, rest, rfl, lower⟩, ?_⟩
        rintro ⟨t', u', same, lower⟩
        cases same
        exact lower

theorem opensElsewhere {c : Char} (other : c.toLower ≠ 'h') (cs : List Char) :
    opensSecure (c :: cs) = false := by
  rw [opensSecure, Text.sameFolded, List.take_succ_cons, List.map_cons]
  refine beq_false_of_ne fun same => other ?_
  exact (List.cons.inj same).1

theorem charsSecure {cs : List Char} {u : Uri} (ok : ofChars? cs = some u) :
    u.scheme = some "https" ↔ opensSecure cs = true := by
  unfold ofChars? at ok
  split at ok
  · contradiction
  · obtain ⟨p, _, rfl⟩ := Option.map_eq_some_iff.mp ok
    simp [opensElsewhere]
  · cases ok
    simp [opensElsewhere]
  · obtain ⟨⟨scheme, rest⟩, found, ok⟩ := Option.bind_eq_some_iff.mp ok
    have same := schemeSecure found
    rw [← same]
    dsimp only at ok
    split at ok
    · contradiction
    · split at ok
      · split at ok
        · cases ok
          simp
        · contradiction
      · split at ok
        · contradiction
        · rename_i s _
          obtain ⟨⟨p, q⟩, _, ok⟩ := Option.bind_eq_some_iff.mp ok
          cases ok
          have text : "https" = String.ofList secureScheme := rfl
          rw [text, Option.some.injEq, Option.some.injEq, String.ofList_inj]

end Uri

namespace Endpoint

def isSecure (e : Endpoint) : Bool := e.uri.scheme == some "https"

def asksForTls (addr : String) : Bool := Uri.opensSecure addr.toList

theorem fullAddressAsks (i : Identity) :
    asksForTls (fullAddress i) = if hasScheme i.serverAddr then asksForTls i.serverAddr else i.tls := by
  unfold fullAddress
  split
  · rfl
  · cases i.tls with
    | true => simp [asksForTls, Uri.opensSecure, Uri.secureScheme, Text.sameFolded]
    | false => simp [asksForTls, Uri.opensSecure, Uri.secureScheme, Text.sameFolded]

theorem uriAsks {addr : String} {u : Uri} (ok : uri? addr = some u) :
    u.scheme = some "https" ↔ asksForTls addr = true := by
  unfold uri? at ok
  split at ok
  · rename_i onSocket
    cases ok
    obtain ⟨rest, same⟩ : ∃ rest, "unix:".toList ++ rest = addr.toList := by
      simpa [isLocalSocket, List.IsPrefix] using onSocket
    have other : asksForTls addr = false := by
      rw [asksForTls, ← same]
      exact Uri.opensElsewhere (by decide) _
    simp [localUri, other]
  · unfold Uri.ofText? at ok
    split at ok
    · contradiction
    · exact Uri.charsSecure ok

theorem endpointUri {t : FileTree} {i : Identity} {c : Config} {parses : Bytes → Bool} {e : Endpoint}
    (ok : ofConfig t i c parses = .ok e) : uri? (fullAddress i) = some e.uri := by
  unfold ofConfig at ok
  dsimp only at ok
  split at ok
  · contradiction
  · rename_i u found
    split at ok
    · contradiction
    · cases ok
      exact found

/- The flag of the identity counts only for an address that names no scheme. An address that does is
followed, whatever the flag says. -/
theorem schemeDecidesTls {t : FileTree} {i : Identity} {c : Config} {parses : Bytes → Bool} {e : Endpoint}
    (ok : ofConfig t i c parses = .ok e) :
    e.isSecure = if hasScheme i.serverAddr then asksForTls i.serverAddr else i.tls := by
  rw [← fullAddressAsks, Bool.eq_iff_iff, isSecure, beq_iff_eq]
  exact uriAsks (endpointUri ok)

def flaggedConfig (addr : String) : Config := { serverAddr := addr, installationCode := "INST", tls := true }

def secureEndpoint : Endpoint := ⟨⟨some "https", some "policy.test:443", "/", none⟩⟩

theorem bareAddressGetsTls :
    ofConfig .fresh (flaggedConfig "policy.test:443").identity (flaggedConfig "policy.test:443") =
      .ok secureEndpoint ∧ secureEndpoint.isSecure = true := by
  have ok : ofConfig .fresh (flaggedConfig "policy.test:443").identity (flaggedConfig "policy.test:443") =
    .ok secureEndpoint := by rfl
  have bare : hasScheme (flaggedConfig "policy.test:443").identity.serverAddr = false := by decide +kernel
  refine ⟨ok, ?_⟩
  rw [schemeDecidesTls ok, bare]
  rfl

theorem plainSchemeDropsTls :
    (flaggedConfig "http://policy.test:50051").validate = .ok () ∧
      (flaggedConfig "http://policy.test:50051").identity.tls = true ∧
      ∃ e, ofConfig .fresh (flaggedConfig "http://policy.test:50051").identity
        (flaggedConfig "http://policy.test:50051") = .ok e ∧ e.uri.scheme = some "http" ∧
        e.isSecure = false := by
  exact ⟨rfl, rfl, ⟨⟨some "http", some "policy.test:50051", "/", none⟩⟩, by rfl, rfl, by decide⟩

end Endpoint
end FirewallAgent
