import Linkage.Signature

/-
  Descriptors: the compact written form of types and
  signatures.  A primitive type is one letter, a class is its
  slash-separated name between `L` and `;`, an array is a
  bracket before its component, and a signature is its
  parameters in parentheses before its result.

  Key definitions include:
    * `maxDimensions`
    * `Ty.descriptor`
    * `Signature.descriptor`
    * `readType`
    * `readParams`
    * `Ty.ofDescriptor`
    * `Signature.ofDescriptor`
-/

------------------------------------------------------------
-- Writing
------------------------------------------------------------

namespace Linkage

/- The most dimensions that a read array type may have. -/
def maxDimensions : Nat := 255

/- The descriptor of a type. -/
def Ty.descriptor : Ty → List Char
| .prim k => [k.code]
| .cls n => 'L' :: n.internal ++ [';']
| .array c => '[' :: c.descriptor

/- The descriptor of a signature. -/
def Signature.descriptor (s : Signature) : List Char :=
  '(' :: s.params.flatMap Ty.descriptor ++ ')' :: s.ret.descriptor

------------------------------------------------------------
-- Reading one type
------------------------------------------------------------

/- A text is no descriptor; the error quotes the text. -/
def badDescriptor
    {α : Type}
    (cs : List Char) : Except SignatureError α :=
  .error (.invalidDescriptor (String.ofList cs))

/- What is said of an array type of too many dimensions. -/
def tooDeep (dims : Nat) : SignatureError :=
  .invalidDescriptor
    ("array type has " ++ toString dims ++
      " dimensions (at most " ++ toString maxDimensions ++
      " are allowed)")

/-
  Read a type that is no array: a letter, or a class name
  up to the first semicolon.  The result holds the unread
  text, which is shorter.
-/
def readElement
    (cs : List Char) :
    Except SignatureError (Ty × List Char) :=
  match cs with
  | [] => badDescriptor cs
  | c :: rest =>
      match Kind.ofCode? c with
      | some k => .ok (.prim k, rest)
      | none =>
          if c = 'L' then
            match rest.dropWhile (· ≠ ';') with
            | [] => badDescriptor cs
            | _ :: after =>
                let name := rest.takeWhile (· ≠ ';')
                if name = [] then badDescriptor cs
                else .ok (.cls (ClassName.ofInternal name), after)
          else badDescriptor cs

/- The number of brackets that a text opens with. -/
def openBrackets (cs : List Char) : Nat :=
  (cs.takeWhile (· = '[')).length

/-
  Read one type.  All opening brackets are counted first;
  a `void` component is refused with the text from the first
  bracket on.
-/
def readType
    (cs : List Char) :
    Except SignatureError (Ty × List Char) :=
  if openBrackets cs = 0 then readElement cs
  else if maxDimensions < openBrackets cs
  then .error (tooDeep (openBrackets cs))
  else
    match readElement (cs.dropWhile (· = '[')) with
    | .error e => .error e
    | .ok (t, after) =>
        if t.IsVoid
        then badDescriptor cs
        else .ok (t.nested (openBrackets cs), after)

theorem length_dropWhile_le
    (p : Char → Bool)
    (cs : List Char) :
    (cs.dropWhile p).length ≤ cs.length :=
  (List.dropWhile_sublist p).length_le

theorem readElement_shorter
    {cs after : List Char}
    {t : Ty}
    (h : readElement cs = .ok (t, after)) :
    after.length < cs.length := by
  unfold readElement at h
  split at h
  · simp [badDescriptor] at h
  · rename_i c rest
    split at h
    · simp only [Except.ok.injEq, Prod.mk.injEq] at h
      simp [h.2]
    · split at h
      · split at h
        · simp [badDescriptor] at h
        · rename_i d after' hDrop
          dsimp only at h
          split at h
          · simp [badDescriptor] at h
          · simp only [Except.ok.injEq, Prod.mk.injEq] at h
            have hLen := length_dropWhile_le (· ≠ ';') rest
            rw [hDrop] at hLen
            simp only [List.length_cons] at hLen ⊢
            rw [← h.2]
            omega
      · simp [badDescriptor] at h

theorem readType_shorter
    {cs after : List Char}
    {t : Ty}
    (h : readType cs = .ok (t, after)) :
    after.length < cs.length := by
  unfold readType at h
  split at h
  · exact readElement_shorter h
  · split at h
    · cases h
    · split at h
      · cases h
      · rename_i t' after' hRead
        split at h
        · simp [badDescriptor] at h
        · simp only [Except.ok.injEq, Prod.mk.injEq] at h
          have hShort := readElement_shorter hRead
          have hLen := length_dropWhile_le (· = '[') cs
          rw [← h.2]
          omega

------------------------------------------------------------
-- Reading descriptors
------------------------------------------------------------

/-
  Read parameters up to the closing parenthesis.  The text
  `whole` is quoted when a parameter is `void` or the text
  ends.
-/
def readParams
    (whole cs : List Char) :
    Except SignatureError (List Ty × List Char) :=
  match cs with
  | [] => badDescriptor whole
  | c :: rest =>
      if c = ')' then .ok ([], rest)
      else
        match _h : readType (c :: rest) with
        | .error e => .error e
        | .ok (t, after) =>
            if t.IsVoid then badDescriptor whole
            else
              match readParams whole after with
              | .error e => .error e
              | .ok (ts, final) => .ok (t :: ts, final)
termination_by cs.length
decreasing_by exact readType_shorter _h

/- The type that a whole text describes. -/
def Ty.ofDescriptor
    (cs : List Char) : Except SignatureError Ty :=
  match readType cs with
  | .error e => .error e
  | .ok (t, rest) =>
      if rest = [] ∧ t.IsVoid = false
      then .ok t
      else badDescriptor cs

/-
  The signature that a whole text describes.  The slots of
  the parameters are counted after the text is read.
-/
def Signature.ofDescriptor
    (cs : List Char) : Except SignatureError Signature :=
  match cs with
  | '(' :: rest =>
      match readParams cs rest with
      | .error e => .error e
      | .ok (_, []) => badDescriptor cs
      | .ok (ps, after) =>
          match readType after with
          | .error e => .error e
          | .ok (ret, []) => Signature.build ret ps
          | .ok (_, _ :: _) => badDescriptor cs
  | _ => badDescriptor cs

end Linkage
