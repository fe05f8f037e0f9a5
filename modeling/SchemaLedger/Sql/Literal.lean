/-!
# String literals in statements

A literal stands between single quotes, and a quote inside it is written twice. What
`encode` writes, `decode` reads back; `decode` refuses a quote that stands alone, so
each text has one written form.
-/

namespace SchemaLedger.Sql.Literal

/-- The characters between the quotes of a literal. -/
def encode : List Char → List Char
  | [] => []
  | c :: rest => if c = '\'' then '\'' :: '\'' :: encode rest else c :: encode rest

/-- The text that the characters between the quotes of a literal stand for. -/
def decode : List Char → Option (List Char)
  | [] => some []
  | '\'' :: '\'' :: rest => (decode rest).map ('\'' :: ·)
  | c :: rest => if c = '\'' then none else (decode rest).map (c :: ·)

/-- A text with its quotes doubled. -/
def escape (s : String) : String :=
  String.ofList (encode s.toList)

/-- A text as a literal. -/
def quote (s : String) : String :=
  "'" ++ escape s ++ "'"

/-- The text of a literal whose opening quote has been passed, and what follows its closing
quote. -/
def take? : List Char → Option (List Char × List Char)
  | [] => none
  | '\'' :: '\'' :: rest => (take? rest).map fun (t, behind) => ('\'' :: t, behind)
  | c :: rest =>
    if c = '\'' then some ([], rest) else (take? rest).map fun (t, behind) => (c :: t, behind)

theorem decode_encode (s : List Char) : decode (encode s) = some s := by
  induction s with
  | nil => rfl
  | cons c r ih => by_cases h : c = '\'' <;> simp [encode, decode, h, ih]

theorem encode_inj {s t : List Char} (h : encode s = encode t) : s = t := by
  have hs := decode_encode s
  rw [h, decode_encode] at hs
  exact (Option.some.inj hs).symm

theorem quote_inj {s t : String} (h : quote s = quote t) : s = t := by
  rw [quote, quote, String.append_left_inj, String.append_right_inj] at h
  have hlist := congrArg String.toList h
  rw [escape, escape, String.toList_ofList, String.toList_ofList] at hlist
  exact String.toList_inj.1 (encode_inj hlist)

end SchemaLedger.Sql.Literal
