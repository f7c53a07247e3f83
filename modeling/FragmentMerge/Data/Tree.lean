/-! Trees of data, as written in configuration files and reports. A table keeps the order in which
its entries were written. -/

namespace FragmentMerge

inductive Tree where
  | null
  | bool (b : Bool)
  | int (i : Int)
  | float (written : String)
  | date (written : String)
  | text (s : String)
  | list (items : List Tree)
  | table (entries : List (String × Tree))
  deriving Inhabited, Repr

namespace Tree

def nat (n : Nat) : Tree := .int n

def texts (ss : List String) : Tree := .list (ss.map .text)

def ofOption (f : α → Tree) : Option α → Tree
  | none => .null
  | some a => f a

def textTable (kvs : List (String × String)) : Tree := .table (kvs.map fun (k, v) => (k, .text v))

end Tree

end FragmentMerge
