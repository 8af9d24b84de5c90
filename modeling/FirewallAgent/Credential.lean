import FirewallAgent.Dictionary
import FirewallAgent.Text.Quoted

/-!
The credential of a device for one installation code, and the two records that hold it. Displays
never show the secret.
-/
namespace FirewallAgent

structure Credential where
  appId : String
  appSecret : String
  deriving DecidableEq, Inhabited

namespace Credential

def idKey (code : String) : String := code ++ ".app_id"

def secretKey (code : String) : String := code ++ ".app_secret"

def display (c : Credential) : String :=
  "Credential \x7b app_id: " ++ Text.Quoted.quote c.appId ++ ", app_secret: " ++
    Text.Quoted.quote "<redacted>" ++ " \x7d"

def find? (d : Dictionary) (code : String) : Option Credential := do
  let appId ← d.get? (idKey code)
  let appSecret ← d.get? (secretKey code)
  some ⟨appId, appSecret⟩

def record (d : Dictionary) (code : String) (c : Credential) : Dictionary :=
  (d.insert (idKey code) c.appId).insert (secretKey code) c.appSecret

end Credential
end FirewallAgent
