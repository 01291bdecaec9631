import Mathlib.Tactic

/-!
The concrete syntax of JSON.

A tree holds everything that is written, white space included, so that its text is determined;
the texts of trees are the JSON texts. The members of an object are found in its text behind what
is written before them.
-/

namespace MezonSfu.Json

open List

/-- The bytes of a text of ASCII characters. -/
def ascii (s : String) : List UInt8 := s.toList.map fun c => UInt8.ofNat c.toNat

def isDigit (c : UInt8) : Bool := 48 ≤ c && c ≤ 57

def isHex (c : UInt8) : Bool := isDigit c || (65 ≤ c && c ≤ 70) || (97 ≤ c && c ≤ 102)

def isBlank (c : UInt8) : Bool := c == 32 || c == 9 || c == 10 || c == 13

structure Space where
  text : List UInt8
  blank : ∀ c ∈ text, isBlank c = true

def Space.none : Space := ⟨[], nofun⟩

structure Digits where
  text : List UInt8
  ne_nil : text ≠ []
  digits : ∀ c ∈ text, isDigit c = true

def Digits.value (d : Digits) : ℕ := d.text.foldl (fun v c => v * 10 + (c.toNat - 48)) 0

structure Exponent where
  upper : Bool
  sign : Option Bool
  digits : Digits

structure Number where
  negative : Bool
  int : Digits
  noLeadingZero : int.text.head? = some 48 → int.text = [48]
  fraction : Option Digits
  exponent : Option Exponent

/-- A character of a string. -/
inductive Piece where
  | plain (c : UInt8) (h : 32 ≤ c ∧ c ≠ 34 ∧ c ≠ 92)
  | escape (c : UInt8) (h : c ∈ ascii "\"\\/bfnrt")
  | unicode (a b c d : UInt8) (h : ∀ x ∈ [a, b, c, d], isHex x = true)

mutual

inductive Value where
  | null
  | bool (b : Bool)
  | num (n : Number)
  | str (s : List Piece)
  | arr (space : Space) (items : List Item)
  | obj (space : Space) (members : List Member)

inductive Item where
  | mk (before : Space) (value : Value) (after : Space)

inductive Member where
  | mk (before : Space) (key : List Piece) (beforeColon afterColon : Space) (value : Value)
    (after : Space)

end

/-! ### Texts -/

def intText (negative : Bool) (d : Digits) : List UInt8 := (if negative then [45] else []) ++ d.text

def intValue (negative : Bool) (d : Digits) : ℤ := if negative then -d.value else d.value

def Exponent.text (e : Exponent) : List UInt8 :=
  (if e.upper then 69 else 101) ::
    ((match e.sign with
      | none => []
      | some true => [45]
      | some false => [43]) ++ e.digits.text)

def Number.text (n : Number) : List UInt8 :=
  intText n.negative n.int ++
    (match n.fraction with
      | none => []
      | some d => 46 :: d.text) ++
    (match n.exponent with
      | none => []
      | some e => e.text)

def Piece.text : Piece → List UInt8
  | .plain c _ => [c]
  | .escape c _ => [92, c]
  | .unicode a b c d _ => [92, 117, a, b, c, d]

def rawText (s : List Piece) : List UInt8 := s.flatMap Piece.text

def quoted (raw : List UInt8) : List UInt8 := 34 :: (raw ++ [34])

mutual

def Value.text : Value → List UInt8
  | .null => ascii "null"
  | .bool true => ascii "true"
  | .bool false => ascii "false"
  | .num n => n.text
  | .str s => quoted (rawText s)
  | .arr space items => 91 :: (space.text ++ (itemsText items ++ [93]))
  | .obj space members => 123 :: (space.text ++ (membersText members ++ [125]))

def Item.text : Item → List UInt8
  | .mk before value after => before.text ++ (value.text ++ after.text)

def Member.text : Member → List UInt8
  | .mk before key beforeColon afterColon value after =>
    before.text ++ (quoted (rawText key) ++ (beforeColon.text ++ (58 :: (afterColon.text ++
      (value.text ++ after.text)))))

def itemsText : List Item → List UInt8
  | [] => []
  | i :: rest => i.text ++ itemsTail rest

def itemsTail : List Item → List UInt8
  | [] => []
  | i :: rest => 44 :: (i.text ++ itemsTail rest)

def membersText : List Member → List UInt8
  | [] => []
  | m :: rest => m.text ++ membersTail rest

def membersTail : List Member → List UInt8
  | [] => []
  | m :: rest => 44 :: (m.text ++ membersTail rest)

end

namespace Member

def before : Member → Space
  | mk before _ _ _ _ _ => before

def key : Member → List Piece
  | mk _ key _ _ _ _ => key

def beforeColon : Member → Space
  | mk _ _ beforeColon _ _ _ => beforeColon

def afterColon : Member → Space
  | mk _ _ _ afterColon _ _ => afterColon

def value : Member → Value
  | mk _ _ _ _ value _ => value

def after : Member → Space
  | mk _ _ _ _ _ after => after

/-- What is written before the value, from the key on. -/
def front (m : Member) : List UInt8 :=
  quoted (rawText m.key) ++ (m.beforeColon.text ++ (58 :: m.afterColon.text))

lemma text_eq (m : Member) :
    m.text = m.before.text ++ (m.front ++ (m.value.text ++ m.after.text)) := by
  cases m
  unfold text front
  simp only [before, key, beforeColon, afterColon, value, after, append_assoc, cons_append]

end Member

/-! ### Where members stand -/

/-- What is written before the members that follow `pre`. -/
def membersFront : List Member → List UInt8
  | [] => []
  | m :: rest => m.text ++ (44 :: membersFront rest)

lemma membersText_append (pre : List Member) (m : Member) (post : List Member) :
    membersText (pre ++ m :: post) = membersFront pre ++ (m.text ++ membersTail post) := by
  have htail : ∀ pre : List Member, membersTail (pre ++ m :: post) =
      44 :: (membersFront pre ++ (m.text ++ membersTail post)) := by
    intro pre
    induction pre with
    | nil => rfl
    | cons x rest ih =>
      rw [cons_append, membersTail, ih, membersFront]
      simp only [append_assoc, cons_append]
  cases pre with
  | nil => rfl
  | cons x rest =>
    rw [cons_append, membersText, htail, membersFront]
    simp only [append_assoc, cons_append]

/-- A JSON text whose value is an object. -/
structure Document where
  lead : Space
  space : Space
  members : List Member
  trail : Space

def Document.text (doc : Document) : List UInt8 :=
  doc.lead.text ++ ((Value.obj doc.space doc.members).text ++ doc.trail.text)

/-- The member stands among those of an object, between `left` and `right`. -/
def MemberIn (space : Space) (members : List Member) (m : Member) (left right : List UInt8) :
    Prop :=
  ∃ pre post, members = pre ++ m :: post ∧ left = 123 :: (space.text ++ membersFront pre) ∧
    right = membersTail post ++ [125]

/-- A text that goes on behind a value: white space, a comma or a closing brace. -/
def Delimits (rest : List UInt8) : Prop :=
  ∃ c tail, rest = c :: tail ∧ (isBlank c = true ∨ c = 44 ∨ c = 125)

variable {left rest right : List UInt8} {m : Member} {space : Space} {members : List Member}

lemma delimits_space (s : Space) (h : Delimits rest) : Delimits (s.text ++ rest) := by
  cases hs : s.text with
  | nil => exact h
  | cons c tail => exact ⟨c, tail ++ rest, rfl, .inl (s.blank c (hs ▸ mem_cons_self ..))⟩

lemma Delimits.append (h : Delimits rest) (more : List UInt8) : Delimits (rest ++ more) := by
  obtain ⟨c, tail, rfl, hc⟩ := h
  exact ⟨c, tail ++ more, rfl, hc⟩

lemma MemberIn.text (h : MemberIn space members m left right) :
    (Value.obj space members).text = left ++ (m.text ++ right) := by
  obtain ⟨pre, post, rfl, rfl, rfl⟩ := h
  rw [Value.text, membersText_append]
  simp only [append_assoc, cons_append]

lemma MemberIn.delimits (h : MemberIn space members m left right) : Delimits right := by
  obtain ⟨pre, post, -, -, rfl⟩ := h
  cases post with
  | nil => exact ⟨125, [], rfl, .inr (.inr rfl)⟩
  | cons x rest => exact ⟨44, _, by rw [membersTail]; rfl, .inr (.inl rfl)⟩

def Document.TopLevel (doc : Document) (m : Member) (left right : List UInt8) : Prop :=
  ∃ l r, MemberIn doc.space doc.members m l r ∧ left = doc.lead.text ++ l ∧
    right = r ++ doc.trail.text

/-- A member of the object that a member called `outer` holds. -/
def Document.Inside (doc : Document) (outer : List UInt8) (m : Member)
    (left right : List UInt8) : Prop :=
  ∃ o l r space members l' r', doc.TopLevel o l r ∧ rawText o.key = outer ∧
    o.value = .obj space members ∧ MemberIn space members m l' r' ∧
    left = l ++ (o.before.text ++ (o.front ++ l')) ∧ right = r' ++ (o.after.text ++ r)

section Document

variable {doc : Document} {outer : List UInt8}

lemma Document.TopLevel.text (h : doc.TopLevel m left right) :
    doc.text = left ++ (m.text ++ right) := by
  obtain ⟨l, r, hm, rfl, rfl⟩ := h
  unfold Document.text
  rw [hm.text]
  simp only [append_assoc]

lemma Document.TopLevel.delimits (h : doc.TopLevel m left right) : Delimits right := by
  obtain ⟨l, r, hm, -, rfl⟩ := h
  exact hm.delimits.append _

lemma Document.Inside.text (h : doc.Inside outer m left right) :
    doc.text = left ++ (m.text ++ right) := by
  obtain ⟨o, l, r, space, members, l', r', ho, -, hvalue, hm, rfl, rfl⟩ := h
  rw [ho.text, o.text_eq, hvalue, hm.text]
  simp only [append_assoc]

lemma Document.Inside.delimits (h : doc.Inside outer m left right) : Delimits right := by
  obtain ⟨o, l, r, space, members, l', r', -, -, -, hm, -, rfl⟩ := h
  exact hm.delimits.append _

end Document

/-- The value is an integer, written as a number or as a string. -/
inductive Value.WritesInt : Value → ℤ → Prop
  | num (n : Number) (hfraction : n.fraction = none) (hexponent : n.exponent = none) :
    WritesInt (.num n) (intValue n.negative n.int)
  | str (s : List Piece) (negative : Bool) (d : Digits) (h : rawText s = intText negative d) :
    WritesInt (.str s) (intValue negative d)

end MezonSfu.Json
