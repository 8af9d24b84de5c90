import FirewallAgent.Text.Quoted

/-!
Statuses with which the policy service ends a call or a stream: one of seventeen codes and a
message. Numbers outside the table stand for the unknown code.
-/
namespace FirewallAgent

inductive StatusCode where
  | ok
  | cancelled
  | unknown
  | invalidArgument
  | deadlineExceeded
  | notFound
  | alreadyExists
  | permissionDenied
  | resourceExhausted
  | failedPrecondition
  | aborted
  | outOfRange
  | unimplemented
  | internal
  | unavailable
  | dataLoss
  | unauthenticated
  deriving DecidableEq, Repr

namespace StatusCode

def all : List StatusCode :=
  [ok, cancelled, unknown, invalidArgument, deadlineExceeded, notFound, alreadyExists,
   permissionDenied, resourceExhausted, failedPrecondition, aborted, outOfRange, unimplemented,
   internal, unavailable, dataLoss, unauthenticated]

def number (c : StatusCode) : Nat := all.idxOf c

def ofNumber (n : Int) : StatusCode :=
  if 0 ≤ n then (all[n.toNat]?).getD unknown else unknown

def description : StatusCode → String
  | ok => "The operation completed successfully"
  | cancelled => "The operation was cancelled"
  | unknown => "Unknown error"
  | invalidArgument => "Client specified an invalid argument"
  | deadlineExceeded => "Deadline expired before operation could complete"
  | notFound => "Some requested entity was not found"
  | alreadyExists => "Some entity that we attempted to create already exists"
  | permissionDenied =>
    "The caller does not have permission to execute the specified operation"
  | resourceExhausted => "Some resource has been exhausted"
  | failedPrecondition => "The system is not in a state required for the operation's execution"
  | aborted => "The operation was aborted"
  | outOfRange => "Operation was attempted past the valid range"
  | unimplemented => "Operation is not implemented or not supported"
  | internal => "Internal error"
  | unavailable => "The service is currently unavailable"
  | dataLoss => "Unrecoverable data loss or corruption"
  | unauthenticated => "The request does not have valid authentication credentials"

end StatusCode

structure Status where
  code : StatusCode
  message : String
  deriving DecidableEq, Repr

def Status.text (s : Status) : String :=
  "code: '" ++ s.code.description ++ "'" ++
    if s.message.isEmpty then "" else ", message: " ++ Text.Quoted.quote s.message

end FirewallAgent
