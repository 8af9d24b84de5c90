import FirewallAgent.Message
import FirewallAgent.Wire.Field

/-!
The wire form of each message as a list of numbered fields, and reading a message back from such
a list. A field that holds its default is left out unless its presence counts. A reader merges:
a later scalar replaces an earlier one, nested messages are read on where they stand, and fields
of unknown numbers are passed over; a known field of the wrong kind is an error.
-/
namespace FirewallAgent.Wire

def textField (n : Nat) (s : String) : Field := ⟨n, .bytes (Text.toBytes s)⟩

def text (n : Nat) (s : String) : List Field := if s = "" then [] else [textField n s]

def text? (n : Nat) : Option String → List Field
  | none => []
  | some s => [textField n s]

def bytes? (n : Nat) : Option Bytes → List Field
  | none => []
  | some b => [⟨n, .bytes b⟩]

def number (n v : Nat) : List Field := if v = 0 then [] else [⟨n, .varint v⟩]

def number? (n : Nat) : Option UInt32 → List Field
  | none => []
  | some v => [⟨n, .varint v.toNat⟩]

def flag (n : Nat) (b : Bool) : List Field := if b then [⟨n, .varint 1⟩] else []

def message (n : Nat) (fs : List Field) : Field := ⟨n, .bytes (Field.encodeAll fs)⟩

def message? {α : Type} (n : Nat) (fields : α → List Field) : Option α → List Field
  | none => []
  | some a => [message n (fields a)]

def entries (n : Nat) (d : Dictionary) : List Field :=
  d.entries.map fun e => message n (text 1 e.1 ++ text 2 e.2)

def asText : Payload → Option String
  | .bytes b => Text.ofBytes? b
  | _ => none

def asBytes : Payload → Option Bytes
  | .bytes b => some b
  | _ => none

def asNumber : Payload → Option Nat
  | .varint n => some n
  | _ => none

def asUInt32 (p : Payload) : Option UInt32 := (asNumber p).map UInt32.ofNat

def asFlag (p : Payload) : Option Bool := (asNumber p).map (· ≠ 0)

def depth : Nat := 100

abbrev Merge (α : Type) := Nat → α → Field → Option α

def nested {α : Type} (merge : Merge α) (depth : Nat) (a : α) (p : Payload) : Option α := do
  let b ← asBytes p
  if depth = 0 then none else
  let fs ← Field.decodeAll (depth - 1) b
  fs.foldlM (merge (depth - 1)) a

def mergeEntry : Merge (String × String) := fun _ e f =>
  match f.number with
  | 1 => (asText f.payload).map fun k => (k, e.2)
  | 2 => (asText f.payload).map fun v => (e.1, v)
  | _ => some e

def mergeDictionary (depth : Nat) (d : Dictionary) (p : Payload) : Option Dictionary :=
  (nested mergeEntry depth ("", "") p).map fun e => d.insert e.1 e.2

def read {α : Type} (merge : Merge α) (start : α) (b : Bytes) : Option α := do
  let fs ← Field.decodeAll depth b
  fs.foldlM (merge depth) start

def Connection.fields (c : Connection) : List Field :=
  text 1 c.token ++ text? 2 c.sourceIp ++ number? 3 c.sourcePort ++ text? 4 c.destinationIp ++
    number? 5 c.destinationPort ++ text 6 c.protocol

def Connection.merge : Merge Connection := fun _ c f =>
  match f.number with
  | 1 => (asText f.payload).map fun v => { c with token := v }
  | 2 => (asText f.payload).map fun v => { c with sourceIp := some v }
  | 3 => (asUInt32 f.payload).map fun v => { c with sourcePort := some v }
  | 4 => (asText f.payload).map fun v => { c with destinationIp := some v }
  | 5 => (asUInt32 f.payload).map fun v => { c with destinationPort := some v }
  | 6 => (asText f.payload).map fun v => { c with protocol := v }
  | _ => some c

def Origin.fields (o : Origin) : List Field :=
  text 1 o.ip ++ text? 2 o.country ++ text? 3 o.asn ++ text? 4 o.org ++ text? 5 o.continentCode ++
    text? 6 o.city ++ text? 7 o.region ++ text? 8 o.postal ++ text? 9 o.timezone ++
    flag 10 o.blacklist

def Origin.merge : Merge Origin := fun _ o f =>
  match f.number with
  | 1 => (asText f.payload).map fun v => { o with ip := v }
  | 2 => (asText f.payload).map fun v => { o with country := some v }
  | 3 => (asText f.payload).map fun v => { o with asn := some v }
  | 4 => (asText f.payload).map fun v => { o with org := some v }
  | 5 => (asText f.payload).map fun v => { o with continentCode := some v }
  | 6 => (asText f.payload).map fun v => { o with city := some v }
  | 7 => (asText f.payload).map fun v => { o with region := some v }
  | 8 => (asText f.payload).map fun v => { o with postal := some v }
  | 9 => (asText f.payload).map fun v => { o with timezone := some v }
  | 10 => (asFlag f.payload).map fun v => { o with blacklist := v }
  | _ => some o

def ConnectionInfo.fields (i : ConnectionInfo) : List Field :=
  message? 1 Connection.fields i.connection ++ message? 2 Origin.fields i.origin ++
    number 3 i.tcpId.toNat

def ConnectionInfo.merge : Merge ConnectionInfo := fun depth i f =>
  match f.number with
  | 1 =>
    (nested Connection.merge depth (i.connection.getD {}) f.payload).map fun v =>
      { i with connection := some v }
  | 2 =>
    (nested Origin.merge depth (i.origin.getD {}) f.payload).map fun v =>
      { i with origin := some v }
  | 3 => (asNumber f.payload).map fun v => { i with tcpId := UInt64.ofNat v }
  | _ => some i

def ConnectionReply.fields (r : ConnectionReply) : List Field :=
  message? 1 ConnectionInfo.fields r.info

def mergeInfo (depth : Nat) (i : Option ConnectionInfo) (p : Payload) :
    Option (Option ConnectionInfo) :=
  (nested ConnectionInfo.merge depth (i.getD {}) p).map some

def ConnectionReply.merge : Merge ConnectionReply := fun depth r f =>
  match f.number with
  | 1 => (mergeInfo depth r.info f.payload).map fun v => { r with info := v }
  | _ => some r

def Request.fields (r : Request) : List Field :=
  text 1 r.token ++ text 2 r.url ++ entries 3 r.headers ++ text 4 r.method ++
    bytes? 5 r.body ++ entries 6 r.query ++ message? 100 ConnectionInfo.fields r.info

def Request.merge : Merge Request := fun depth r f =>
  match f.number with
  | 1 => (asText f.payload).map fun v => { r with token := v }
  | 2 => (asText f.payload).map fun v => { r with url := v }
  | 3 => (mergeDictionary depth r.headers f.payload).map fun v => { r with headers := v }
  | 4 => (asText f.payload).map fun v => { r with method := v }
  | 5 => (asBytes f.payload).map fun v => { r with body := some v }
  | 6 => (mergeDictionary depth r.query f.payload).map fun v => { r with query := v }
  | 100 => (mergeInfo depth r.info f.payload).map fun v => { r with info := v }
  | _ => some r

def Response.fields (r : Response) : List Field :=
  text 1 r.token ++ number 2 r.code.toNat ++ entries 3 r.headers ++ bytes? 4 r.body ++
    message? 100 ConnectionInfo.fields r.info

def Response.merge : Merge Response := fun depth r f =>
  match f.number with
  | 1 => (asText f.payload).map fun v => { r with token := v }
  | 2 => (asUInt32 f.payload).map fun v => { r with code := v }
  | 3 => (mergeDictionary depth r.headers f.payload).map fun v => { r with headers := v }
  | 4 => (asBytes f.payload).map fun v => { r with body := some v }
  | 100 => (mergeInfo depth r.info f.payload).map fun v => { r with info := v }
  | _ => some r

def ofInt32 (n : Int32) : Nat := n.toInt64.toUInt64.toNat

def toInt32 (n : Nat) : Int32 := (UInt64.ofNat n).toInt64.toInt32

def VerdictReply.fields (r : VerdictReply) : List Field := number 2 (ofInt32 r.number)

def VerdictReply.merge : Merge VerdictReply := fun _ r f =>
  match f.number with
  | 2 => (asNumber f.payload).map fun v => { r with number := toInt32 v }
  | _ => some r

def AuthorizationRequest.fields (r : AuthorizationRequest) : List Field :=
  text 1 r.code ++ text 2 r.category ++ text 3 r.kind ++ text 4 r.targetOs ++ text 5 r.uuid

def AuthorizationRequest.merge : Merge AuthorizationRequest := fun _ r f =>
  match f.number with
  | 1 => (asText f.payload).map fun v => { r with code := v }
  | 2 => (asText f.payload).map fun v => { r with category := v }
  | 3 => (asText f.payload).map fun v => { r with kind := v }
  | 4 => (asText f.payload).map fun v => { r with targetOs := v }
  | 5 => (asText f.payload).map fun v => { r with uuid := v }
  | _ => some r

def Authentication.fields (a : Authentication) : List Field := text 1 a.appId ++ text 2 a.appSecret

def Authentication.merge : Merge Authentication := fun _ a f =>
  match f.number with
  | 1 => (asText f.payload).map fun v => { a with appId := v }
  | 2 => (asText f.payload).map fun v => { a with appSecret := v }
  | _ => some a

def ClientMessage.fields : ClientMessage → List Field
  | .authorizationRequest r => [message 1 (AuthorizationRequest.fields r)]
  | .authentication a => [message 2 (Authentication.fields a)]
  | .empty => []

/- A field of a choice is merged into the current member if it is the same one, and replaces it if
it is another. -/
def ClientMessage.merge : Merge ClientMessage := fun depth m f =>
  match f.number with
  | 1 =>
    let start := match m with
      | .authorizationRequest r => r
      | _ => {}
    (nested AuthorizationRequest.merge depth start f.payload).map .authorizationRequest
  | 2 =>
    let start := match m with
      | .authentication a => a
      | _ => {}
    (nested Authentication.merge depth start f.payload).map .authentication
  | _ => some m

def authorizedFields (appId appSecret : Option String) : List Field :=
  text? 1 appId ++ text? 2 appSecret

def mergeAuthorized : Merge (Option String × Option String) := fun _ a f =>
  match f.number with
  | 1 => (asText f.payload).map fun v => (some v, a.2)
  | 2 => (asText f.payload).map fun v => (a.1, some v)
  | _ => some a

def mergeDefaults : Merge Bool := fun _ b f =>
  match f.number with
  | 1 => asFlag f.payload
  | _ => some b

def mergeNothing : Merge Unit := fun _ _ _ => some ()

def ServerMessage.fields : ServerMessage → List Field
  | .authorized appId appSecret => [message 1 (authorizedFields appId appSecret)]
  | .rejected => [message 2 []]
  | .token value => [textField 3 value]
  | .deauthorized => [message 4 []]
  | .defaults cache => [message 5 (flag 1 cache)]
  | .empty => []

def ServerMessage.merge : Merge ServerMessage := fun depth m f =>
  match f.number with
  | 1 =>
    let start := match m with
      | .authorized appId appSecret => (appId, appSecret)
      | _ => (none, none)
    (nested mergeAuthorized depth start f.payload).map fun a => .authorized a.1 a.2
  | 2 => (nested mergeNothing depth () f.payload).map fun _ => .rejected
  | 3 => (asText f.payload).map .token
  | 4 => (nested mergeNothing depth () f.payload).map fun _ => .deauthorized
  | 5 =>
    let start := match m with
      | .defaults cache => cache
      | _ => false
    (nested mergeDefaults depth start f.payload).map .defaults
  | _ => some m

class Message (α : Type) where
  fields : α → List Field
  merge : Merge α
  start : α

instance : Message Connection := ⟨Connection.fields, Connection.merge, {}⟩
instance : Message Origin := ⟨Origin.fields, Origin.merge, {}⟩
instance : Message ConnectionInfo := ⟨ConnectionInfo.fields, ConnectionInfo.merge, {}⟩
instance : Message ConnectionReply := ⟨ConnectionReply.fields, ConnectionReply.merge, {}⟩
instance : Message Request := ⟨Request.fields, Request.merge, {}⟩
instance : Message Response := ⟨Response.fields, Response.merge, {}⟩
instance : Message VerdictReply := ⟨VerdictReply.fields, VerdictReply.merge, {}⟩
instance : Message ServerMessage := ⟨ServerMessage.fields, ServerMessage.merge, .empty⟩
instance : Message ClientMessage := ⟨ClientMessage.fields, ClientMessage.merge, .empty⟩

def encode {α : Type} [Message α] (a : α) : Bytes := Field.encodeAll (Message.fields a)

def decode {α : Type} [Message α] (b : Bytes) : Option α := read Message.merge Message.start b

end FirewallAgent.Wire
