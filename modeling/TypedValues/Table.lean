/-!
# Tables

A table is an association list kept in insertion order. Which key an entry answers to is a test
given by the caller, and nothing is assumed of it: the first entry that passes is the one meant.
-/

namespace TypedValues

abbrev Table (κ ν : Type) := List (κ × ν)

namespace Table
variable {κ ν : Type}

/-- The first entry whose key passes the test. -/
def binding? (same : κ → Bool) (t : Table κ ν) : Option (κ × ν) :=
  t.find? fun e => same e.1

def get? (same : κ → Bool) (t : Table κ ν) : Option ν :=
  (binding? same t).map (·.2)

/-- The first entry whose key passes is replaced where it stands, key and all; a new entry goes to
the end. -/
def put (same : κ → Bool) (key : κ) (value : ν) : Table κ ν → Table κ ν
  | [] => [(key, value)]
  | e :: rest => if same e.1 then (key, value) :: rest else e :: put same key value rest

/-- Removes the first entry whose key passes. -/
def erase (same : κ → Bool) (t : Table κ ν) : Table κ ν :=
  t.eraseP fun e => same e.1

end Table
end TypedValues
