import FirewallAgent.Dictionary
import FirewallAgent.Text.Utf8

/-!
Messages exchanged with the policy service. An optional field that is present with an empty value
differs from an absent one.
-/
namespace FirewallAgent

structure Connection where
  token : String := ""
  sourceIp : Option String := none
  sourcePort : Option UInt32 := none
  destinationIp : Option String := none
  destinationPort : Option UInt32 := none
  protocol : String := ""
  deriving DecidableEq, Inhabited

structure Origin where
  ip : String := ""
  country : Option String := none
  asn : Option String := none
  org : Option String := none
  continentCode : Option String := none
  city : Option String := none
  region : Option String := none
  postal : Option String := none
  timezone : Option String := none
  blacklist : Bool := false
  deriving DecidableEq, Inhabited

structure ConnectionInfo where
  connection : Option Connection := none
  origin : Option Origin := none
  tcpId : UInt64 := 0
  deriving DecidableEq, Inhabited

structure ConnectionReply where
  info : Option ConnectionInfo := none
  deriving DecidableEq, Inhabited

structure Request where
  token : String := ""
  url : String := ""
  headers : Dictionary := .empty
  method : String := ""
  body : Option Bytes := none
  query : Dictionary := .empty
  info : Option ConnectionInfo := none
  deriving DecidableEq, Inhabited

structure Response where
  token : String := ""
  code : UInt32 := 0
  headers : Dictionary := .empty
  body : Option Bytes := none
  info : Option ConnectionInfo := none
  deriving DecidableEq, Inhabited

structure VerdictReply where
  number : Int32 := 0
  deriving DecidableEq, Inhabited

structure AuthorizationRequest where
  code : String := ""
  category : String := ""
  kind : String := ""
  targetOs : String := ""
  uuid : String := ""
  deriving DecidableEq, Inhabited

structure Authentication where
  appId : String := ""
  appSecret : String := ""
  deriving DecidableEq, Inhabited

inductive ClientMessage where
  | authorizationRequest (r : AuthorizationRequest)
  | authentication (a : Authentication)
  | empty
  deriving DecidableEq, Inhabited

inductive ServerMessage where
  | authorized (appId appSecret : Option String)
  | rejected
  | token (value : String)
  | deauthorized
  | defaults (cache : Bool)
  | empty
  deriving DecidableEq, Inhabited

end FirewallAgent
