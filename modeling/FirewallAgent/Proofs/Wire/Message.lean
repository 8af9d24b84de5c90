import FirewallAgent.Proofs.Dictionary
import FirewallAgent.Proofs.Wire.Field
import FirewallAgent.Wire.Message

/-! Messages read back from their bytes. A field that was left out stands for the default that reading
starts from, and one that is there stands for itself, its default included. The entries of a
dictionary may have been written in any order. -/
namespace FirewallAgent.Wire
open FirewallAgent.Wire.Field (encodeAll decodeAll isNumber Payload.Plain)

variable {α β : Type} {merge : Merge α} {room n : Nat} {a b c : α} {fs gs : List Field}

/- Read after one another, the fields take a message from one value to another, where messages may nest
this much deeper. -/
structure Leads (merge : Merge α) (room : Nat) (a : α) (fs : List Field) (b : α) : Prop where
  plain : ∀ f ∈ fs, f.Plain
  merged : ∀ depth, room ≤ depth → Fits (encodeAll fs) → fs.foldlM (merge depth) a = some b

namespace Leads

theorem nothing : Leads merge room a [] a := ⟨nofun, fun _ _ _ => rfl⟩

theorem append (first : Leads merge room a fs b) (second : Leads merge room b gs c) :
    Leads merge room a (fs ++ gs) c := by
  refine ⟨fun f hf => (List.mem_append.mp hf).elim (first.plain f) (second.plain f), ?_⟩
  intro depth deep fits
  rw [encodeAll, List.flatMap_append] at fits
  have parts := fitsAppend fits
  rw [List.foldlM_append, first.merged depth deep parts.1]
  exact second.merged depth deep parts.2

theorem one {f : Field} (plain : f.Plain)
    (put : ∀ depth, room ≤ depth → Fits f.encode → merge depth a f = some b) :
    Leads merge room a [f] b := by
  refine ⟨fun g hg => by rw [List.mem_singleton.mp hg]; exact plain, ?_⟩
  intro depth deep fits
  have alone : encodeAll [f] = f.encode := by simp [encodeAll]
  rw [List.foldlM_cons, put depth deep (alone ▸ fits)]
  rfl

theorem read {start : α} (leads : Leads merge room start fs a) (shallow : room ≤ depth)
    (fits : Fits (encodeAll fs)) : Wire.read merge start (encodeAll fs) = some a := by
  rw [Wire.read, Field.decodeAllEncode leads.plain fits]
  exact leads.merged depth shallow fits

theorem nested {start : α} (leads : Leads merge room start fs a) {depth : Nat} (deep : room + 1 ≤ depth)
    (fits : Fits (encodeAll fs)) : Wire.nested merge depth start (.bytes (encodeAll fs)) = some a := by
  have open' : depth ≠ 0 := by omega
  simp only [Wire.nested, asBytes, Option.bind_eq_bind, Option.bind_some, if_neg open',
    Field.decodeAllEncode leads.plain fits]
  exact leads.merged (depth - 1) (by omega) fits

theorem text (numbered : isNumber n = true) (set : α → String → α) {s : String}
    (whole : set b s = b) (start : set b "" = a)
    (put : ∀ depth v, merge depth a (textField n v) = some (set b v)) :
    Leads merge room a (Wire.text n s) b := by
  rw [Wire.text]
  split
  · rename_i empty
    rw [← start, ← empty, whole]
    exact nothing
  · exact one ⟨numbered, trivial⟩ fun depth _ _ => (put depth s).trans (congrArg some whole)

theorem text? (numbered : isNumber n = true) (set : α → Option String → α) {s : Option String}
    (whole : set b s = b) (start : set b none = a)
    (put : ∀ depth v, merge depth a (textField n v) = some (set b (some v))) :
    Leads merge room a (Wire.text? n s) b := by
  cases s with
  | none => rw [← start, whole]; exact nothing
  | some v => exact one ⟨numbered, trivial⟩ fun depth _ _ => (put depth v).trans (congrArg some whole)

theorem bytes? (numbered : isNumber n = true) (set : α → Option Bytes → α) {s : Option Bytes}
    (whole : set b s = b) (start : set b none = a)
    (put : ∀ depth v, merge depth a ⟨n, .bytes v⟩ = some (set b (some v))) :
    Leads merge room a (Wire.bytes? n s) b := by
  cases s with
  | none => rw [← start, whole]; exact nothing
  | some v => exact one ⟨numbered, trivial⟩ fun depth _ _ => (put depth v).trans (congrArg some whole)

theorem number (numbered : isNumber n = true) (set : α → Nat → α) {v : Nat} (small : v < 2 ^ 64)
    (whole : set b v = b) (start : set b 0 = a)
    (put : ∀ depth v, merge depth a ⟨n, .varint v⟩ = some (set b v)) :
    Leads merge room a (Wire.number n v) b := by
  rw [Wire.number]
  split
  · rename_i zero
    rw [← start, ← zero, whole]
    exact nothing
  · exact one ⟨numbered, small⟩ fun depth _ _ => (put depth v).trans (congrArg some whole)

theorem number? (numbered : isNumber n = true) (set : α → Option UInt32 → α) {v : Option UInt32}
    (whole : set b v = b) (start : set b none = a)
    (put : ∀ depth (v : UInt32), merge depth a ⟨n, .varint v.toNat⟩ = some (set b (some v))) :
    Leads merge room a (Wire.number? n v) b := by
  cases v with
  | none => rw [← start, whole]; exact nothing
  | some v =>
    have small : v.toNat < 2 ^ 64 := Nat.lt_trans v.toNat_lt (by decide)
    exact one ⟨numbered, small⟩ fun depth _ _ => (put depth v).trans (congrArg some whole)

theorem flag (numbered : isNumber n = true) (set : α → Bool → α) {v : Bool} (whole : set b v = b)
    (start : set b false = a) (put : ∀ depth, merge depth a ⟨n, .varint 1⟩ = some (set b true)) :
    Leads merge room a (Wire.flag n v) b := by
  cases v with
  | false => rw [← start, whole]; exact nothing
  | true =>
    exact one ⟨numbered, by simp [Payload.Plain]⟩ fun depth _ _ => (put depth).trans (congrArg some whole)

theorem message {inner : Merge β} {start x : β} (numbered : isNumber n = true)
    (leads : Leads inner room start fs x)
    (put : ∀ depth p, Wire.nested inner depth start p = some x → merge depth a ⟨n, p⟩ = some b) :
    Leads merge (room + 1) a [Wire.message n fs] b := by
  refine one ⟨numbered, trivial⟩ fun depth deep fits => ?_
  have inside : Fits (encodeAll fs) := (fitsAppend (fitsAppend fits).2).2
  exact put depth _ (leads.nested deep inside)

theorem message? {inner : Merge β} {blank : β} {fields : β → List Field} {v : Option β}
    (numbered : isNumber n = true) (leads : ∀ x, Leads inner room blank (fields x) x)
    (set : α → Option β → α) (whole : set b v = b) (start : set b none = a)
    (put : ∀ depth p x, Wire.nested inner depth blank p = some x →
      merge depth a ⟨n, p⟩ = some (set b (some x))) :
    Leads merge (room + 1) a (Wire.message? n fields v) b := by
  cases v with
  | none => rw [← start, whole]; exact nothing
  | some x =>
    refine message numbered (leads x) ?_
    intro depth p read
    exact (put depth p x read).trans (congrArg some whole)

end Leads

def listing (n : Nat) (es : Entries) : List Field := es.map fun e => message n (text 1 e.1 ++ text 2 e.2)

@[simp] theorem asTextField (v : String) : asText (textField n v).payload = some v := by
  simp [textField, asText]

@[simp] theorem textFieldNumber (v : String) : (textField n v).number = n := rfl

theorem entryLeads (e : String × String) :
    Leads mergeEntry room ("", "") (text 1 e.1 ++ text 2 e.2) e := by
  refine .append ?_ (.text rfl (fun x v => (x.1, v)) rfl rfl (by simp [mergeEntry]))
  exact .text rfl (fun x v => (v, x.2)) rfl rfl (by simp [mergeEntry])

theorem listingLeads (numbered : isNumber n = true) (set : α → Dictionary → α)
    {es : Entries} {d : Dictionary}
    (put : ∀ depth d p e, nested mergeEntry depth ("", "") p = some e →
      merge depth (set b d) ⟨n, p⟩ = some (set b (d.insert e.1 e.2))) :
    Leads merge (room + 1) (set b d) (listing n es) (set b (d.insertAll es)) := by
  induction es generalizing d with
  | nil => exact .nothing
  | cons e es ih =>
    have first : Leads merge (room + 1) (set b d) [message n (text 1 e.1 ++ text 2 e.2)]
        (set b (d.insert e.1 e.2)) :=
      .message numbered (entryLeads e) fun depth p read => put depth d p e read
    exact first.append (ih (d := d.insert e.1 e.2))

theorem dictionaryLeads (numbered : isNumber n = true) (set : α → Dictionary → α)
    {es : Entries} {d : Dictionary}
    (ordered : es.Perm d.entries) (whole : set b d = b) (start : set b .empty = a)
    (put : ∀ depth d p e, nested mergeEntry depth ("", "") p = some e →
      merge depth (set b d) ⟨n, p⟩ = some (set b (d.insert e.1 e.2))) :
    Leads merge (room + 1) a (listing n es) b := by
  have leads : Leads merge (room + 1) (set b .empty) (listing n es) (set b (Dictionary.empty.insertAll es)) :=
    listingLeads numbered set put
  rwa [Dictionary.insertAllListing ordered, whole, start] at leads

theorem connectionLeads (c : Connection) : Leads Connection.merge room {} (Connection.fields c) c := by
  refine .append ?_ (.text rfl (fun x v => { x with protocol := v }) rfl rfl
    (by simp [Connection.merge]))
  refine .append ?_ (.number? rfl (fun x v => { x with destinationPort := v }) rfl rfl
    (by simp [Connection.merge, asUInt32, asNumber]))
  refine .append ?_ (.text? rfl (fun x v => { x with destinationIp := v }) rfl rfl
    (by simp [Connection.merge]))
  refine .append ?_ (.number? rfl (fun x v => { x with sourcePort := v }) rfl rfl
    (by simp [Connection.merge, asUInt32, asNumber]))
  refine .append ?_ (.text? rfl (fun x v => { x with sourceIp := v }) rfl rfl
    (by simp [Connection.merge]))
  exact .text rfl (fun x v => { x with token := v }) rfl rfl (by simp [Connection.merge])

theorem originLeads (o : Origin) : Leads Origin.merge room {} (Origin.fields o) o := by
  refine .append ?_ (.flag rfl (fun x v => { x with blacklist := v }) rfl rfl
    (by simp [Origin.merge, asFlag, asNumber]))
  refine .append ?_ (.text? rfl (fun x v => { x with timezone := v }) rfl rfl (by simp [Origin.merge]))
  refine .append ?_ (.text? rfl (fun x v => { x with postal := v }) rfl rfl (by simp [Origin.merge]))
  refine .append ?_ (.text? rfl (fun x v => { x with region := v }) rfl rfl (by simp [Origin.merge]))
  refine .append ?_ (.text? rfl (fun x v => { x with city := v }) rfl rfl (by simp [Origin.merge]))
  refine .append ?_ (.text? rfl (fun x v => { x with continentCode := v }) rfl rfl
    (by simp [Origin.merge]))
  refine .append ?_ (.text? rfl (fun x v => { x with org := v }) rfl rfl (by simp [Origin.merge]))
  refine .append ?_ (.text? rfl (fun x v => { x with asn := v }) rfl rfl (by simp [Origin.merge]))
  refine .append ?_ (.text? rfl (fun x v => { x with country := v }) rfl rfl (by simp [Origin.merge]))
  exact .text rfl (fun x v => { x with ip := v }) rfl rfl (by simp [Origin.merge])

theorem infoLeads (i : ConnectionInfo) :
    Leads ConnectionInfo.merge (room + 1) {} (ConnectionInfo.fields i) i := by
  refine .append ?_ (.number rfl (fun x v => { x with tcpId := UInt64.ofNat v }) i.tcpId.toNat_lt
    (by simp) rfl (by simp [ConnectionInfo.merge, asNumber]))
  refine .append ?_ (.message? rfl originLeads (fun x v => { x with origin := v }) rfl rfl
    (by simp +contextual [ConnectionInfo.merge]))
  exact .message? rfl connectionLeads (fun x v => { x with connection := v }) rfl rfl
    (by simp +contextual [ConnectionInfo.merge])

theorem connectionReplyLeads (r : ConnectionReply) :
    Leads ConnectionReply.merge (room + 2) {} (ConnectionReply.fields r) r :=
  .message? rfl infoLeads (fun x v => { x with info := v }) rfl rfl
    (by simp +contextual [ConnectionReply.merge, mergeInfo])

def Request.fieldsAs (r : Request) (headers query : Entries) : List Field :=
  text 1 r.token ++ text 2 r.url ++ listing 3 headers ++ text 4 r.method ++ bytes? 5 r.body ++
    listing 6 query ++ message? 100 ConnectionInfo.fields r.info

theorem requestLeads (r : Request) {headers query : Entries} (first : headers.Perm r.headers.entries)
    (second : query.Perm r.query.entries) :
    Leads Request.merge (room + 2) {} (Request.fieldsAs r headers query) r := by
  refine .append ?_ (.message? rfl infoLeads (fun x v => { x with info := v }) rfl rfl
    (by simp +contextual [Request.merge, mergeInfo]))
  refine .append ?_ (dictionaryLeads rfl (fun x v => { x with query := v }) second rfl rfl
    (by simp +contextual [Request.merge, mergeDictionary]))
  refine .append ?_ (.bytes? rfl (fun x v => { x with body := v }) rfl rfl
    (by simp [Request.merge, asBytes]))
  refine .append ?_ (.text rfl (fun x v => { x with method := v }) rfl rfl (by simp [Request.merge]))
  refine .append ?_ (dictionaryLeads rfl (fun x v => { x with headers := v }) first rfl rfl
    (by simp +contextual [Request.merge, mergeDictionary]))
  refine .append ?_ (.text rfl (fun x v => { x with url := v }) rfl rfl (by simp [Request.merge]))
  exact .text rfl (fun x v => { x with token := v }) rfl rfl (by simp [Request.merge])

def Response.fieldsAs (r : Response) (headers : Entries) : List Field :=
  text 1 r.token ++ number 2 r.code.toNat ++ listing 3 headers ++ bytes? 4 r.body ++
    message? 100 ConnectionInfo.fields r.info

theorem responseLeads (r : Response) {headers : Entries} (ordered : headers.Perm r.headers.entries) :
    Leads Response.merge (room + 2) {} (Response.fieldsAs r headers) r := by
  have small : r.code.toNat < 2 ^ 64 := Nat.lt_trans r.code.toNat_lt (by decide)
  refine .append ?_ (.message? rfl infoLeads (fun x v => { x with info := v }) rfl rfl
    (by simp +contextual [Response.merge, mergeInfo]))
  refine .append ?_ (.bytes? rfl (fun x v => { x with body := v }) rfl rfl
    (by simp [Response.merge, asBytes]))
  refine .append ?_ (dictionaryLeads rfl (fun x v => { x with headers := v }) ordered rfl rfl
    (by simp +contextual [Response.merge, mergeDictionary]))
  refine .append ?_ (.number rfl (fun x v => { x with code := UInt32.ofNat v }) small (by simp) rfl
    (by simp [Response.merge, asUInt32, asNumber]))
  exact .text rfl (fun x v => { x with token := v }) rfl rfl (by simp [Response.merge])

theorem toOfInt32 (n : Int32) : toInt32 (ofInt32 n) = n := by
  simp [toInt32, ofInt32]

theorem verdictLeads (r : VerdictReply) : Leads VerdictReply.merge room {} (VerdictReply.fields r) r :=
  .number rfl (fun x v => { x with number := toInt32 v }) (UInt64.toNat_lt _) (by simp [toOfInt32]) rfl
    (by simp [VerdictReply.merge, asNumber])

theorem authorizationRequestLeads (r : AuthorizationRequest) :
    Leads AuthorizationRequest.merge room {} (AuthorizationRequest.fields r) r := by
  refine .append ?_ (.text rfl (fun x v => { x with uuid := v }) rfl rfl
    (by simp [AuthorizationRequest.merge]))
  refine .append ?_ (.text rfl (fun x v => { x with targetOs := v }) rfl rfl
    (by simp [AuthorizationRequest.merge]))
  refine .append ?_ (.text rfl (fun x v => { x with kind := v }) rfl rfl
    (by simp [AuthorizationRequest.merge]))
  refine .append ?_ (.text rfl (fun x v => { x with category := v }) rfl rfl
    (by simp [AuthorizationRequest.merge]))
  exact .text rfl (fun x v => { x with code := v }) rfl rfl (by simp [AuthorizationRequest.merge])

theorem authenticationLeads (x : Authentication) :
    Leads Authentication.merge room {} (Authentication.fields x) x := by
  refine .append ?_ (.text rfl (fun x v => { x with appSecret := v }) rfl rfl
    (by simp [Authentication.merge]))
  exact .text rfl (fun x v => { x with appId := v }) rfl rfl (by simp [Authentication.merge])

theorem clientMessageLeads (m : ClientMessage) :
    Leads ClientMessage.merge (room + 1) .empty (ClientMessage.fields m) m := by
  cases m with
  | authorizationRequest r =>
    exact .message rfl (authorizationRequestLeads r) (by simp +contextual [ClientMessage.merge])
  | authentication a =>
    exact .message rfl (authenticationLeads a) (by simp +contextual [ClientMessage.merge])
  | empty => exact .nothing

theorem authorizedLeads (appId appSecret : Option String) :
    Leads mergeAuthorized room (none, none) (authorizedFields appId appSecret) (appId, appSecret) := by
  refine .append ?_ (.text? rfl (fun x v => (x.1, v)) rfl rfl (by simp [mergeAuthorized]))
  exact .text? rfl (fun x v => (v, x.2)) rfl rfl (by simp [mergeAuthorized])

theorem defaultsLeads (cache : Bool) : Leads mergeDefaults room false (flag 1 cache) cache :=
  .flag rfl (fun _ v => v) rfl rfl (by simp [mergeDefaults, asFlag, asNumber])

theorem nothingLeads : Leads mergeNothing room () [] () := .nothing

theorem serverMessageLeads (m : ServerMessage) :
    Leads ServerMessage.merge (room + 1) .empty (ServerMessage.fields m) m := by
  cases m with
  | authorized appId appSecret =>
    exact .message rfl (authorizedLeads appId appSecret) (by simp +contextual [ServerMessage.merge])
  | rejected =>
    exact .message rfl nothingLeads (by simp +contextual [ServerMessage.merge])
  | token value =>
    refine .one ⟨rfl, trivial⟩ ?_
    intro depth _ _
    simp [ServerMessage.merge]
  | deauthorized =>
    exact .message rfl nothingLeads (by simp +contextual [ServerMessage.merge])
  | defaults cache => exact .message rfl (defaultsLeads cache) (by simp +contextual [ServerMessage.merge])
  | empty => exact .nothing

def ReadsBack (α : Type) [Message α] : Prop :=
  ∀ a : α, Fits (encode a) → decode (encode a) = some a ∧ ∀ b : α, encode b = encode a → b = a

theorem readsBack [Message α] (leads : ∀ a : α, Leads Message.merge room Message.start (Message.fields a) a)
    (shallow : room ≤ depth) : ReadsBack α := by
  intro a fits
  have back : decode (encode a) = some a := (leads a).read shallow fits
  refine ⟨back, ?_⟩
  intro b same
  have short : Fits (encode b) := by rw [same]; exact fits
  have other : decode (encode b) = some b := (leads b).read shallow short
  rw [same, back] at other
  exact (Option.some.inj other).symm

theorem messagesReadBack :
    ReadsBack Connection ∧ ReadsBack Origin ∧ ReadsBack ConnectionInfo ∧ ReadsBack ConnectionReply ∧
      ReadsBack Request ∧ ReadsBack Response ∧ ReadsBack VerdictReply ∧ ReadsBack ServerMessage ∧
      ReadsBack ClientMessage ∧
      (∀ (r : Request) (headers query : Entries), headers.Perm r.headers.entries →
        query.Perm r.query.entries → Fits (encodeAll (Request.fieldsAs r headers query)) →
        decode (encodeAll (Request.fieldsAs r headers query)) = some r) ∧
      ∀ (r : Response) (headers : Entries), headers.Perm r.headers.entries →
        Fits (encodeAll (Response.fieldsAs r headers)) →
        decode (encodeAll (Response.fieldsAs r headers)) = some r := by
  have requests (r : Request) {headers query : Entries} (first : headers.Perm r.headers.entries)
      (second : query.Perm r.query.entries) :
      Leads Request.merge 2 {} (Request.fieldsAs r headers query) r := requestLeads r first second
  have responses (r : Response) {headers : Entries} (ordered : headers.Perm r.headers.entries) :
      Leads Response.merge 2 {} (Response.fieldsAs r headers) r := responseLeads r ordered
  have nested : 2 ≤ depth := by decide
  have single : 1 ≤ depth := by decide
  have flat : 0 ≤ depth := Nat.zero_le _
  exact ⟨readsBack connectionLeads flat, readsBack originLeads flat, readsBack infoLeads single,
    readsBack connectionReplyLeads nested, readsBack (fun r => requests r (.refl _) (.refl _)) nested,
    readsBack (fun r => responses r (.refl _)) nested, readsBack verdictLeads flat,
    readsBack serverMessageLeads single, readsBack clientMessageLeads single,
    fun r _ _ first second fits => (requests r first second).read nested fits,
    fun r _ ordered fits => (responses r ordered).read nested fits⟩

def sparseRequest : Request :=
  { headers := (Dictionary.empty.insert "" "").insert "a" "", body := some [],
    info := some { connection := some { sourceIp := some "", sourcePort := some 0xFFFFFFFF },
                   origin := some {}, tcpId := 0xFFFFFFFFFFFFFFFF } }

theorem sparseMessagesReadBack :
    decode (encode sparseRequest) = some sparseRequest ∧
      decode (encodeAll (Request.fieldsAs sparseRequest [("a", ""), ("", "")] [])) = some sparseRequest ∧
      decode (encode (⟨-1⟩ : VerdictReply)) = some (⟨-1⟩ : VerdictReply) ∧
      decode (encode (ServerMessage.token "")) = some (ServerMessage.token "") := by
  obtain ⟨-, -, -, -, requests, -, verdicts, pushes, -, listed, -⟩ := messagesReadBack
  have turned : List.Perm [("a", ""), ("", "")] sparseRequest.headers.entries := .swap _ _ _
  have fits : Fits (encode sparseRequest) := by decide +kernel
  have alsoFits : Fits (encodeAll (Request.fieldsAs sparseRequest [("a", ""), ("", "")] [])) := by
    decide +kernel
  have negativeFits : Fits (encode (⟨-1⟩ : VerdictReply)) := by decide +kernel
  have emptyFits : Fits (encode (ServerMessage.token "")) := by decide +kernel
  exact ⟨(requests _ fits).1, listed _ _ _ turned (.refl _) alsoFits, (verdicts _ negativeFits).1,
    (pushes _ emptyFits).1⟩

end FirewallAgent.Wire
