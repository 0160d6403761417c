import QueryFilter.Text.CaseTable

/-!
# Upper case

The full upper-case mapping, one character at a time: a character may become several, and its
neighbours do not matter.
-/

namespace QueryFilter

def upperChar (c : Char) : List Char :=
  let n := c.toNat
  if n < 0x80 then [c.toUpper]
  else
    match CaseTable.expansions.lookup n with
    | some form => form.map Char.ofNat
    | none =>
      match CaseTable.runs.find? fun (first, last, step, _) =>
          first ≤ n && n ≤ last && (n - first) % step == 0 with
      | some (first, _, _, form) => [Char.ofNat (form + (n - first))]
      | none => [c]

def upper (cs : List Char) : List Char := cs.flatMap upperChar

end QueryFilter
