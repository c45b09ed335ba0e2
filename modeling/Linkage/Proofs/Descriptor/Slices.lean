import Linkage.Proofs.Descriptor.Grammar

/-
  The reader of types, cutting its text at byte offsets.  A
  cut is refused when its offset lies past the end of the
  text or inside a character.  No cut of this reader is
  refused, and it reads what the reader of characters reads:
  every offset it cuts at is the length of a prefix that it
  has looked at.

  Key definitions include:
    * `cutAt?`
    * `slice?`
    * `readTypeByCuts`

  Key theorems include:
    * `cutAt?_eq_some_iff`
    * `readTypeByCuts_eq`
-/

------------------------------------------------------------
-- Cuts
------------------------------------------------------------

namespace Linkage

/- The bytes that a text takes. -/
def byteLength : List Char → Nat
| [] => 0
| c :: cs => c.utf8Size + byteLength cs

/- The parts of a text before and after a byte offset. -/
def cutAt? : List Char → Nat → Option (List Char × List Char)
| cs, 0 => some ([], cs)
| [], _ + 1 => none
| c :: cs, n + 1 =>
    if c.utf8Size ≤ n + 1 then
      (cutAt? cs (n + 1 - c.utf8Size)).map
        (fun p => (c :: p.1, p.2))
    else none

/- The part of a text from one byte offset to another. -/
def slice?
    (cs : List Char)
    (start stop : Nat) : Option (List Char) :=
  if start ≤ stop then
    (cutAt? cs start).bind
      (fun p => (cutAt? p.2 (stop - start)).map Prod.fst)
  else none

/- The part of a text from a byte offset to its end. -/
def sliceFrom?
    (cs : List Char)
    (start : Nat) : Option (List Char) :=
  (cutAt? cs start).map Prod.snd

/- The byte offset of a character in a text. -/
def offsetOf?
    (x : Char) : List Char → Option Nat
| [] => none
| c :: cs =>
    if c = x then some 0
    else (offsetOf? x cs).map (c.utf8Size + ·)

@[simp] theorem byteLength_append
    (as bs : List Char) :
    byteLength (as ++ bs) = byteLength as + byteLength bs := by
  induction as with
  | nil => simp [byteLength]
  | cons a as ih => simp [byteLength, ih, Nat.add_assoc]

/- A text is cut between two parts and nowhere else. -/
theorem cutAt?_eq_some_iff
    {cs as bs : List Char}
    {n : Nat} :
    cutAt? cs n = some (as, bs) ↔
      cs = as ++ bs ∧ n = byteLength as := by
  -- Zero, past the end, after a character, inside of one.
  fun_induction cutAt? cs n generalizing as with
  | case1 cs =>
      cases as with
      | nil => simp [byteLength, eq_comm]
      | cons a as =>
          have hPos := a.utf8Size_pos
          constructor
          · intro hCut
            cases hCut
          · rintro ⟨_, hBytes⟩
            rw [byteLength] at hBytes
            omega
  | case2 n =>
      cases as with
      | nil => simp [byteLength]
      | cons a as => simp
  | case3 c cs n hFits ih =>
      cases as with
      | nil => simp [byteLength]
      | cons a as =>
          constructor
          · intro hCut
            rcases Option.map_eq_some_iff.1 hCut with
              ⟨p, hRest, hParts⟩
            cases hParts
            rcases ih.1 hRest with ⟨rfl, hBytes⟩
            exact ⟨rfl, by rw [byteLength]; omega⟩
          · rintro ⟨hParts, hBytes⟩
            cases hParts
            rw [byteLength] at hBytes
            rw [ih.2 ⟨rfl, by omega⟩]
            rfl
  | case4 c cs n hFits =>
      cases as with
      | nil => simp [byteLength]
      | cons a as =>
          simp only [List.cons_append, List.cons.injEq,
            byteLength]
          constructor
          · intro hCut
            cases hCut
          · rintro ⟨⟨rfl, _⟩, hBytes⟩
            omega

theorem cutAt?_append
    (as bs : List Char) :
    cutAt? (as ++ bs) (byteLength as) = some (as, bs) :=
  cutAt?_eq_some_iff.2 ⟨rfl, rfl⟩

theorem sliceFrom?_append
    (as bs : List Char) :
    sliceFrom? (as ++ bs) (byteLength as) = some bs := by
  rw [sliceFrom?, cutAt?_append]
  rfl

theorem slice?_append
    (as name bs : List Char) :
    slice? (as ++ (name ++ bs)) (byteLength as)
        (byteLength (as ++ name)) =
      some name := by
  have hOrder :
      byteLength as ≤ byteLength (as ++ name) := by
    rw [byteLength_append]
    omega
  have hLength :
      byteLength (as ++ name) - byteLength as =
        byteLength name := by
    rw [byteLength_append]
    omega
  rw [slice?, if_pos hOrder, cutAt?_append, hLength,
    Option.bind_some, cutAt?_append]
  rfl

/- A character is found after those that differ from it. -/
theorem offsetOf?_append
    {x : Char}
    {as : List Char}
    (bs : List Char)
    (hAbsent : x ∉ as) :
    offsetOf? x (as ++ x :: bs) = some (byteLength as) := by
  induction as with
  | nil => simp [offsetOf?, byteLength]
  | cons a as ih =>
      simp only [List.mem_cons, not_or] at hAbsent
      rw [List.cons_append, offsetOf?,
        if_neg (Ne.symm hAbsent.1), ih hAbsent.2,
        byteLength]
      rfl

theorem offsetOf?_eq_none
    {x : Char}
    {cs : List Char}
    (hAbsent : x ∉ cs) :
    offsetOf? x cs = none := by
  induction cs with
  | nil => rfl
  | cons c cs ih =>
      simp only [List.mem_cons, not_or] at hAbsent
      rw [offsetOf?, if_neg (Ne.symm hAbsent.1), ih hAbsent.2]
      rfl

------------------------------------------------------------
-- Reading by Cuts
------------------------------------------------------------

/- A class that is read by cuts, or none if one is refused. -/
def readClassByCuts
    (cs : List Char) :
    Option (Except SignatureError (Ty × List Char)) :=
  match offsetOf? ';' cs with
  | none => some (badDescriptor cs)
  | some stop =>
      (slice? cs 1 stop).bind (fun name =>
        if name = [] then some (badDescriptor cs)
        else
          (sliceFrom? cs (stop + 1)).map (fun after =>
            .ok (.cls (ClassName.ofInternal name), after)))

def readElementByCuts
    (cs : List Char) :
    Option (Except SignatureError (Ty × List Char)) :=
  match cs with
  | [] => some (badDescriptor cs)
  | c :: _ =>
      match Kind.ofCode? c with
      | some k =>
          (sliceFrom? cs 1).map
            (fun rest => .ok (.prim k, rest))
      | none =>
          if c = 'L' then readClassByCuts cs
          else some (badDescriptor cs)

def readTypeByCuts
    (cs : List Char) :
    Option (Except SignatureError (Ty × List Char)) :=
  if openBrackets cs = 0 then readElementByCuts cs
  else if maxDimensions < openBrackets cs
  then some (.error (tooDeep (openBrackets cs)))
  else
    (sliceFrom? cs (openBrackets cs)).bind (fun inner =>
      (readElementByCuts inner).map (fun
        | .error e => .error e
        | .ok (t, after) =>
            if t.IsVoid
            then badDescriptor cs
            else .ok (t.nested (openBrackets cs), after)))

/- A letter of a kind is one byte long. -/
theorem byteLength_of_ofCode?
    {c : Char}
    {k : Kind}
    (hCode : Kind.ofCode? c = some k) :
    byteLength [c] = 1 := by
  rw [← Kind.code_of_ofCode? hCode]
  cases k <;> rfl

theorem byteLength_brackets (n : Nat) :
    byteLength (List.replicate n '[') = n := by
  induction n with
  | zero => rfl
  | succ n ih =>
      rw [List.replicate_succ, byteLength, ih]
      exact Nat.add_comm 1 n

/-
  The offset of the semicolon is the length of the letter
  and the name, so the name lies between two cuts.
-/
theorem readClassByCuts_eq
    (rest : List Char) :
    readClassByCuts ('L' :: rest) =
      some (readElement ('L' :: rest)) := by
  have hCode : Kind.ofCode? 'L' = none := by decide
  unfold readClassByCuts readElement
  dsimp only
  rw [hCode]
  dsimp only
  rw [if_pos rfl]
  by_cases hMem : ';' ∈ rest
  · rcases List.eq_append_cons_of_mem hMem with
      ⟨name, after, rfl, hClosed⟩
    have hAbsent : ';' ∉ 'L' :: name := by
      simpa using hClosed
    have hOffset :
        offsetOf? ';' ('L' :: (name ++ ';' :: after)) =
          some (byteLength ('L' :: name)) :=
      offsetOf?_append after hAbsent
    have hName :
        slice? ('L' :: (name ++ ';' :: after)) 1
            (byteLength ('L' :: name)) =
          some name :=
      slice?_append ['L'] name (';' :: after)
    have hAfter :
        sliceFrom? ('L' :: (name ++ ';' :: after))
            (byteLength ('L' :: name) + 1) =
          some after := by
      have hCut :=
        sliceFrom?_append ('L' :: name ++ [';']) after
      rw [byteLength_append, List.append_assoc] at hCut
      exact hCut
    rw [hOffset, Grammar.takeWhile_closed hClosed,
      Grammar.dropWhile_closed hClosed]
    dsimp only
    rw [hName, Option.bind_some, hAfter]
    split
    · rfl
    · rfl
  · have hAbsent : ';' ∉ 'L' :: rest := by
      simpa using hMem
    rw [offsetOf?_eq_none hAbsent,
      Grammar.dropWhile_unclosed hMem]

theorem readElementByCuts_eq
    (cs : List Char) :
    readElementByCuts cs = some (readElement cs) := by
  cases cs with
  | nil => rfl
  | cons c rest =>
      by_cases hClass : c = 'L'
      · subst hClass
        exact readClassByCuts_eq rest
      · unfold readElementByCuts readElement
        dsimp only
        cases hCode : Kind.ofCode? c with
        | some k =>
            have hCut := sliceFrom?_append [c] rest
            rw [byteLength_of_ofCode? hCode,
              List.singleton_append] at hCut
            dsimp only
            rw [hCut]
            rfl
        | none =>
            dsimp only
            rw [if_neg hClass, if_neg hClass]

/- No cut is refused, whatever the text. -/
theorem readTypeByCuts_eq
    (cs : List Char) :
    readTypeByCuts cs = some (readType cs) := by
  have hInner :
      sliceFrom? cs (openBrackets cs) =
        some (cs.dropWhile (· = '[')) := by
    have hCut :=
      sliceFrom?_append
        (List.replicate (openBrackets cs) '[')
        (cs.dropWhile (· = '['))
    rw [byteLength_brackets, ← Grammar.eq_brackets_append] at hCut
    exact hCut
  unfold readTypeByCuts readType
  rw [hInner, Option.bind_some, readElementByCuts_eq,
    readElementByCuts_eq]
  split
  · rfl
  · split
    · rfl
    · cases readElement (cs.dropWhile (· = '[')) with
      | error e => rfl
      | ok read => rfl

end Linkage
