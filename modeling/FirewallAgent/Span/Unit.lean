/-!
The units in which people write lengths of time. A year has 365.25 days and a month a twelfth of
that, rounded to 30.44 days.
-/
namespace FirewallAgent.Span

inductive TimeUnit where
  | nanosecond
  | microsecond
  | millisecond
  | second
  | minute
  | hour
  | day
  | week
  | month
  | year
  deriving DecidableEq, Repr

namespace TimeUnit

def seconds? : TimeUnit → Option Nat
  | second => some 1
  | minute => some 60
  | hour => some 3600
  | day => some 86400
  | week => some 604800
  | month => some 2630016
  | year => some 31557600
  | _ => none

def nanos : TimeUnit → Nat
  | nanosecond => 1
  | microsecond => 1000
  | millisecond => 1000000
  | u => (u.seconds?.getD 0) * 1000000000

def names : TimeUnit → List String
  | nanosecond => ["nanos", "nsec", "ns"]
  | microsecond => ["usec", "us", "µs"]
  | millisecond => ["millis", "msec", "ms"]
  | second => ["seconds", "second", "secs", "sec", "s"]
  | minute => ["minutes", "minute", "min", "mins", "m"]
  | hour => ["hours", "hour", "hr", "hrs", "h"]
  | day => ["days", "day", "d"]
  | week => ["weeks", "week", "wk", "wks", "w"]
  | month => ["months", "month", "M"]
  | year => ["years", "year", "yr", "yrs", "y"]

def all : List TimeUnit :=
  [nanosecond, microsecond, millisecond, second, minute, hour, day, week, month, year]

def ofName? (name : String) : Option TimeUnit := all.find? fun u => u.names.contains name

theorem ofNameOfMem (u : TimeUnit) : ∀ name ∈ u.names, ofName? name = some u := by
  cases u <;> decide

end TimeUnit
end FirewallAgent.Span
