import Mathlib
import Fanout.Text.Shape

/-! Layouts are unambiguous. A quoted text tells by itself where it ends, whatever stands in it, and
so does a shape in either layout, unless something is written behind it that would make its last
word longer: two shapes that read the same up to what follows them are the same shape. -/
namespace Fanout.Text

namespace Quoted
open Unprintable

/-- What a lower-case hexadecimal digit counts. -/
def digitValue (c : Char) : Nat :=
  if c.isDigit then c.toNat - '0'.toNat else c.toNat - 'a'.toNat + 10

/-- The number that hexadecimal digits stand for. -/
def ofDigits (digits : List Char) : Nat := digits.foldl (fun n c => 16 * n + digitValue c) 0

theorem ofDigits_toDigits (n : Nat) : ofDigits (Nat.toDigits 16 n) = n := by
  induction n using Nat.strong_induction_on with
  | _ n ih =>
    have one : ∀ d < 16, digitValue d.digitChar = d := by decide
    rw [Nat.toDigits_eq_if (by decide)]
    split
    · rename_i small
      simp [ofDigits, one n small]
    · rename_i large
      have fewer : ofDigits (Nat.toDigits 16 (n / 16)) = n / 16 := ih (n / 16) (by omega)
      rw [ofDigits, List.foldl_append, ← ofDigits, fewer, List.foldl_cons, List.foldl_nil,
        one _ (Nat.mod_lt n (by decide))]
      exact Nat.div_add_mod n 16

theorem brace_notMem_toDigits (n : Nat) : '\x7d' ∉ Nat.toDigits 16 n := by
  induction n using Nat.strong_induction_on with
  | _ n ih =>
    have none_is : ∀ d < 16, '\x7d' ≠ d.digitChar := by decide
    rw [Nat.toDigits_eq_if (by decide)]
    split
    · rename_i small
      rw [List.mem_singleton]
      exact none_is n small
    · rename_i large
      rw [List.mem_append, List.mem_singleton, not_or]
      exact ⟨ih (n / 16) (by omega), none_is _ (Nat.mod_lt n (by decide))⟩

/-- The character that a letter behind a backslash stands for. -/
def ofLetter (c : Char) : Char :=
  if c = 't' then '\t' else if c = 'n' then '\n' else if c = 'r' then '\r'
  else if c = '0' then '\x00' else c

def readEscape : List Char → Option (Char × List Char)
  | [] => none
  | 'u' :: rest =>
      let digits := rest.tail.takeWhile (· ≠ '\x7d')
      some (Char.ofNat (ofDigits digits), (rest.tail.dropWhile (· ≠ '\x7d')).tail)
  | c :: rest => some (ofLetter c, rest)

/-- Reads one character between the quotes, and gives what follows it. -/
def readChar : List Char → Option (Char × List Char)
  | [] => none
  | c :: rest =>
      if c = '\\' then readEscape rest else if c = '"' then none else some (c, rest)

theorem readChar_byNumber (c : Char) (rest : List Char) :
    readChar (byNumber c ++ rest) = some (c, rest) := by
  have digits : ∀ d ∈ Nat.toDigits 16 c.toNat, decide (d ≠ '\x7d') = true := by
    intro d member
    rw [decide_eq_true_eq]
    rintro rfl
    exact brace_notMem_toDigits _ member
  have taken : (Nat.toDigits 16 c.toNat ++ '\x7d' :: rest).takeWhile (· ≠ '\x7d') =
      Nat.toDigits 16 c.toNat := by
    rw [List.takeWhile_append_of_pos digits]
    simp
  have dropped : (Nat.toDigits 16 c.toNat ++ '\x7d' :: rest).dropWhile (· ≠ '\x7d') =
      '\x7d' :: rest := by
    rw [List.dropWhile_append_of_pos digits]
    simp
  have shown : byNumber c ++ rest =
      '\\' :: 'u' :: '\x7b' :: (Nat.toDigits 16 c.toNat ++ '\x7d' :: rest) := by
    simp [byNumber]
  rw [shown]
  simp only [readChar, if_true, readEscape, List.tail_cons, taken, dropped, ofDigits_toDigits,
    Char.ofNat_toNat]

/-- However a character is written, it is read back, and nothing of what follows it is taken. -/
theorem readChar_escape (c : Char) (rest : List Char) :
    readChar (escape c ++ rest) = some (c, rest) := by
  unfold escape
  split
  · subst c; rfl
  split
  · subst c; rfl
  split
  · subst c; rfl
  split
  · subst c; rfl
  split
  · subst c; rfl
  split
  · subst c; rfl
  split
  · exact readChar_byNumber c rest
  · rename_i quote backslash _ _ _ _ _
    simp [readChar, quote, backslash]

/-- The closing quote ends a quoted text, and no character in it does. -/
theorem encode_cancel {a b s t : List Char} (h : encode a ++ '"' :: s = encode b ++ '"' :: t) :
    a = b ∧ s = t := by
  induction a generalizing b with
  | nil =>
    cases b with
    | nil => exact ⟨rfl, by simpa [encode_nil] using h⟩
    | cons d b =>
      have first := congrArg readChar h
      rw [encode_cons, List.append_assoc, readChar_escape] at first
      cases first
  | cons c a ih =>
    have first := congrArg readChar h
    cases b with
    | nil =>
      rw [encode_cons, List.append_assoc, readChar_escape] at first
      cases first
    | cons d b =>
      rw [encode_cons, encode_cons, List.append_assoc, List.append_assoc, readChar_escape,
        readChar_escape, Option.some.injEq, Prod.mk.injEq] at first
      obtain ⟨rfl, rest⟩ := first
      obtain ⟨rfl, rfl⟩ := ih rest
      exact ⟨rfl, rfl⟩

theorem quote_cancel {a b : String} {s t : List Char}
    (h : (quote a).toList ++ s = (quote b).toList ++ t) : a = b ∧ s = t := by
  rw [toList_quote, toList_quote] at h
  obtain ⟨same, rest⟩ := encode_cancel (s := s) (t := t) (by simpa using h)
  exact ⟨String.toList_inj.mp same, rest⟩

end Quoted

namespace Shape

def wordChar (c : Char) : Bool := c.isAlphanum || c = '_'

structure IsWord (text : String) : Prop where
  nonempty : text.toList ≠ []
  all : ∀ c ∈ text.toList, wordChar c = true

instance (text : String) : Decidable (IsWord text) :=
  decidable_of_iff (text.toList ≠ [] ∧ text.toList.all wordChar = true)
    ⟨fun h => ⟨h.1, List.all_eq_true.mp h.2⟩, fun h => ⟨h.nonempty, List.all_eq_true.mpr h.all⟩⟩

theorem IsWord.head {text : String} (h : IsWord text) :
    ∃ c rest, text.toList = c :: rest ∧ wordChar c = true := by
  obtain ⟨c, rest, split⟩ := List.exists_cons_of_ne_nil h.nonempty
  exact ⟨c, rest, split, h.all c (split ▸ List.mem_cons_self)⟩

theorem toList_toString (n : Nat) : (toString n).toList = Nat.toDigits 10 n := by
  rw [Nat.toString_eq_ofList_toDigits, String.toList_ofList]

theorem isDigit_of_mem_toString {n : Nat} {c : Char} (h : c ∈ (toString n).toList) :
    c.isDigit = true := by
  rw [toList_toString] at h
  exact Nat.isDigit_of_mem_toDigits (by decide) (by decide) h

theorem isWord_toString (n : Nat) : IsWord (toString n) := by
  refine ⟨toList_toString n ▸ Nat.toDigits_ne_nil, fun c member => ?_⟩
  simp [wordChar, Char.isAlphanum, isDigit_of_mem_toString member]

/-- No word goes on with this. -/
def EndsWord (rest : List Char) : Prop := ∀ c, rest.head? = some c → wordChar c = false

theorem endsWord_cons {c : Char} (h : wordChar c = false) (rest : List Char) :
    EndsWord (c :: rest) := by
  rintro _ ⟨⟩
  exact h

theorem word_cancel {a b : String} (ha : IsWord a) (hb : IsWord b) {s t : List Char}
    (hs : EndsWord s) (ht : EndsWord t) (h : a.toList ++ s = b.toList ++ t) : a = b ∧ s = t := by
  have ends : ∀ rest, EndsWord rest → rest.takeWhile wordChar = [] := by
    intro rest ended
    cases rest with
    | nil => rfl
    | cons c rest => simp [ended c rfl]
  have first := congrArg (List.takeWhile wordChar) h
  rw [List.takeWhile_append_of_pos ha.all, List.takeWhile_append_of_pos hb.all, ends s hs,
    ends t ht, List.append_nil, List.append_nil] at first
  obtain rfl := String.toList_inj.mp first
  exact ⟨rfl, List.append_cancel_left h⟩

/-- Words stand where words belong. -/
inductive Proper : Shape → Prop
  | word {text : String} (word : IsWord text) : Proper (.word text)
  | quoted (text : String) : Proper (.quoted text)
  | items {shapes : List Shape} (proper : ∀ shape ∈ shapes, Proper shape) : Proper (.items shapes)
  | record {name : String} {fields : List (String × Shape)} (word : IsWord name)
      (labels : ∀ field ∈ fields, IsWord field.1) (proper : ∀ field ∈ fields, Proper field.2) :
      Proper (.record name fields)

theorem Proper.single {name label : String} {shape : Shape} (word : IsWord name)
    (isLabel : IsWord label) (proper : shape.Proper) : Proper (.record name [(label, shape)]) :=
  .record word (List.forall_mem_singleton.mpr isLabel) (List.forall_mem_singleton.mpr proper)

theorem Proper.pair {name label label' : String} {shape shape' : Shape} (word : IsWord name)
    (isLabel : IsWord label) (isLabel' : IsWord label') (proper : shape.Proper)
    (proper' : shape'.Proper) : Proper (.record name [(label, shape), (label', shape')]) :=
  .record word (List.forall_mem_cons.mpr ⟨isLabel, List.forall_mem_singleton.mpr isLabel'⟩)
    (List.forall_mem_cons.mpr ⟨proper, List.forall_mem_singleton.mpr proper'⟩)

theorem proper_ofNat (n : Nat) : Proper (ofNat n) := .word (isWord_toString n)

end Shape

open Shape

/-- What may follow a shape in a layout. -/
inductive Closes : List Char → Prop
  | nothing : Closes []
  | comma (rest : List Char) : Closes (',' :: rest)
  | bracket (rest : List Char) : Closes (']' :: rest)
  | brace (rest : List Char) : Closes (' ' :: '\x7d' :: rest)

theorem Closes.endsWord {rest : List Char} (h : Closes rest) : EndsWord rest := by
  intro c head
  cases h <;> cases head <;> decide

theorem Closes.ne_record {rest rest' : List Char} (h : Closes rest) :
    rest ≠ ' ' :: '\x7b' :: rest' := by
  rintro rfl
  cases h

/-- What a first character tells of a shape. -/
inductive Lead
  | word
  | quote
  | bracket

namespace Lead

def of? (c : Char) : Option Lead :=
  if wordChar c then some word
  else if c = '"' then some quote
  else if c = '[' then some bracket
  else none

theorem of?_word {c : Char} (h : wordChar c = true) : of? c = some word := if_pos h

end Lead

def opens (c : Char) : Bool := (Lead.of? c).isSome

/-- A text that one of these opens. -/
def Starts (text : List Char) : Prop := ∃ c rest, text = c :: rest ∧ opens c = true

structure Block where
  /-- All that there is without entries. -/
  empty : List Char
  opening : List Char
  between : List Char
  closing : List Char

namespace Block

def enclose (block : Block) : List (List Char) → List Char
  | [] => block.empty
  | text :: others =>
      block.opening ++ text ++ others.flatMap (block.between ++ ·) ++ block.closing

/-- It can be told where an entry ends, and whether another one follows. -/
structure Legible (block : Block) : Prop where
  between_closes : ∀ rest, Closes (block.between ++ rest)
  closing_closes : ∀ rest, Closes (block.closing ++ rest)
  more : ∀ c rest rest', opens c = true →
    block.between ++ c :: rest ≠ block.closing ++ rest'
  some_entry : ∀ c rest rest', opens c = true →
    block.opening ++ c :: rest ≠ block.empty ++ rest'

section
variable {α : Type} {block : Block} {f : α → List Char}

/-- What follows the first entry. -/
def others (block : Block) (f : α → List Char) (xs : List α) : List Char :=
  xs.flatMap fun x => block.between ++ f x

theorem enclose_cons (x : α) (xs : List α) :
    block.enclose ((x :: xs).map f) = block.opening ++ (f x ++ (block.others f xs ++
      block.closing)) := by
  simp [enclose, others, List.flatMap_map]

theorem others_cons (x : α) (xs : List α) (rest : List Char) :
    block.others f (x :: xs) ++ rest = block.between ++ (f x ++ (block.others f xs ++ rest)) := by
  simp [others]

theorem Legible.others_closes (legible : block.Legible) (xs : List α) (rest : List Char) :
    Closes (block.others f xs ++ (block.closing ++ rest)) := by
  cases xs with
  | nil => exact legible.closing_closes rest
  | cons x xs =>
    rw [others_cons]
    exact legible.between_closes _

variable {xs ys : List α} {s t : List Char}

theorem Legible.others_cancel (legible : block.Legible) (starts_left : ∀ x ∈ xs, Starts (f x))
    (starts_right : ∀ y ∈ ys, Starts (f y))
    (cancel : ∀ x ∈ xs, ∀ y ∈ ys, ∀ s t, Closes s → Closes t → f x ++ s = f y ++ t → x = y ∧ s = t)
    (h : block.others f xs ++ (block.closing ++ s) = block.others f ys ++ (block.closing ++ t)) :
    xs = ys ∧ s = t := by
  induction xs generalizing ys with
  | nil =>
    cases ys with
    | nil => exact ⟨rfl, List.append_cancel_left h⟩
    | cons y ys =>
      obtain ⟨c, rest, text, begins⟩ := starts_right y List.mem_cons_self
      rw [others_cons, text] at h
      exact absurd h.symm (legible.more c _ _ begins)
  | cons x xs ih =>
    cases ys with
    | nil =>
      obtain ⟨c, rest, text, begins⟩ := starts_left x List.mem_cons_self
      rw [others_cons, text] at h
      exact absurd h (legible.more c _ _ begins)
    | cons y ys =>
      rw [others_cons, others_cons] at h
      obtain ⟨rfl, tails⟩ := cancel x List.mem_cons_self y List.mem_cons_self _ _
        (legible.others_closes xs s) (legible.others_closes ys t) (List.append_cancel_left h)
      obtain ⟨rfl, rest⟩ := ih (fun z member => starts_left z (List.mem_cons_of_mem x member))
        (fun z member => starts_right z (List.mem_cons_of_mem x member))
        (fun z left z' right => cancel z (List.mem_cons_of_mem x left) z'
          (List.mem_cons_of_mem x right)) tails
      exact ⟨rfl, rest⟩

theorem Legible.enclose_cancel (legible : block.Legible) (starts_left : ∀ x ∈ xs, Starts (f x))
    (starts_right : ∀ y ∈ ys, Starts (f y))
    (cancel : ∀ x ∈ xs, ∀ y ∈ ys, ∀ s t, Closes s → Closes t → f x ++ s = f y ++ t → x = y ∧ s = t)
    (h : block.enclose (xs.map f) ++ s = block.enclose (ys.map f) ++ t) : xs = ys ∧ s = t := by
  cases xs with
  | nil =>
    cases ys with
    | nil => exact ⟨rfl, List.append_cancel_left h⟩
    | cons y ys =>
      obtain ⟨c, rest, text, begins⟩ := starts_right y List.mem_cons_self
      rw [enclose_cons, text, List.append_assoc] at h
      exact absurd h.symm (legible.some_entry c _ _ begins)
  | cons x xs =>
    cases ys with
    | nil =>
      obtain ⟨c, rest, text, begins⟩ := starts_left x List.mem_cons_self
      rw [enclose_cons, text, List.append_assoc] at h
      exact absurd h (legible.some_entry c _ _ begins)
    | cons y ys =>
      simp only [enclose_cons, List.append_assoc] at h
      -- behind another entry they would read the same as they do behind the opening
      have behind := congrArg (block.between ++ ·) (List.append_cancel_left h)
      simp only [← others_cons] at behind
      exact legible.others_cancel starts_left starts_right cancel behind

end

end Block

/-- A way to write shapes down, in which a list and a record are enclosed as their level says. -/
structure Layout where
  text : Nat → Shape → List Char
  items : Nat → Block
  fields : Nat → Block
  text_word : ∀ level word, text level (.word word) = word.toList
  text_quoted : ∀ level quoted, text level (.quoted quoted) = (Quoted.quote quoted).toList
  text_items : ∀ level shapes,
    text level (.items shapes) = (items level).enclose (shapes.map (text (level + 1)))
  text_record : ∀ level name entries, text level (.record name entries) =
    name.toList ++ (fields level).enclose
      (entries.map fun field => field.1.toList ++ ':' :: ' ' :: text (level + 1) field.2)
  items_legible : ∀ level, (items level).Legible
  fields_legible : ∀ level, (fields level).Legible
  items_begin : ∀ level, (∃ rest, (items level).empty = '[' :: rest) ∧
    ∃ rest, (items level).opening = '[' :: rest
  /-- A record goes on behind its name with what no word goes on with and nothing closes with. -/
  fields_begin : ∀ level, (∃ rest, (fields level).empty = ' ' :: '\x7b' :: rest) ∧
    ∃ rest, (fields level).opening = ' ' :: '\x7b' :: rest

namespace Layout
variable (layout : Layout) (level : Nat)

theorem items_head (texts : List (List Char)) :
    ∃ rest, (layout.items level).enclose texts = '[' :: rest := by
  obtain ⟨⟨empty, onlyThis⟩, opening, first⟩ := layout.items_begin level
  cases texts with
  | nil => exact ⟨empty, onlyThis⟩
  | cons text texts => simp [Block.enclose, first]

theorem fields_head (texts : List (List Char)) :
    ∃ rest, (layout.fields level).enclose texts = ' ' :: '\x7b' :: rest := by
  obtain ⟨⟨empty, onlyThis⟩, opening, first⟩ := layout.fields_begin level
  cases texts with
  | nil => exact ⟨empty, onlyThis⟩
  | cons text texts => simp [Block.enclose, first]

end Layout

/-- What the first character of a shape tells. -/
def Shape.lead : Shape → Lead
  | .word _ => .word
  | .quoted _ => .quote
  | .items _ => .bracket
  | .record _ _ => .word

namespace Layout
variable (layout : Layout) (level : Nat)

theorem text_lead {shape : Shape} (proper : shape.Proper) :
    ∃ c rest, layout.text level shape = c :: rest ∧ Lead.of? c = some shape.lead := by
  cases proper with
  | word word =>
    obtain ⟨c, rest, text, letter⟩ := word.head
    exact ⟨c, rest, by rw [text_word, text], Lead.of?_word letter⟩
  | quoted quoted => exact ⟨'"', _, by rw [text_quoted, Quoted.toList_quote], rfl⟩
  | items _ =>
    obtain ⟨rest, text⟩ := layout.items_head level _
    exact ⟨'[', rest, by rw [text_items, text], rfl⟩
  | record word _ _ =>
    obtain ⟨c, rest, text, letter⟩ := word.head
    exact ⟨c, _, by rw [text_record, text, List.cons_append], Lead.of?_word letter⟩

theorem starts {shape : Shape} (proper : shape.Proper) : Starts (layout.text level shape) := by
  obtain ⟨c, rest, text, lead⟩ := layout.text_lead level proper
  exact ⟨c, rest, text, by rw [opens, lead]; rfl⟩

theorem lead_eq {a b : Shape} (ha : a.Proper) (hb : b.Proper) {s t : List Char}
    (h : layout.text level a ++ s = layout.text level b ++ t) : a.lead = b.lead := by
  obtain ⟨c, rest, text, lead⟩ := layout.text_lead level ha
  obtain ⟨c', rest', text', lead'⟩ := layout.text_lead level hb
  rw [text, text', List.cons_append, List.cons_append] at h
  obtain ⟨rfl, -⟩ := List.cons.inj h
  exact Option.some.inj (lead.symm.trans lead')

theorem field_starts {field : String × Shape} (label : IsWord field.1) :
    Starts (field.1.toList ++ ':' :: ' ' :: layout.text level field.2) := by
  obtain ⟨c, rest, text, letter⟩ := label.head
  exact ⟨c, _, by rw [text, List.cons_append], by rw [opens, Lead.of?_word letter]; rfl⟩

/-- What may follow a word makes no record of it. -/
theorem word_ne_record {word name : String} {entries : List (String × Shape)} (isWord : IsWord word)
    (isName : IsWord name) {s t : List Char} (hs : Closes s) :
    layout.text level (.word word) ++ s ≠ layout.text level (.record name entries) ++ t := by
  intro h
  obtain ⟨rest, body⟩ := layout.fields_head level _
  rw [text_word, text_record, body, List.append_assoc] at h
  have tails := (word_cancel isWord isName hs.endsWord (endsWord_cons (by decide) _) h).2
  exact absurd tails hs.ne_record

/-- A field can be told from its text if the shape in it can. -/
theorem field_cancel {x y : String × Shape} (hx : IsWord x.1) (hy : IsWord y.1) {s t : List Char}
    (value : layout.text level x.2 ++ s = layout.text level y.2 ++ t → x.2 = y.2 ∧ s = t)
    (h : (x.1.toList ++ ':' :: ' ' :: layout.text level x.2) ++ s =
      (y.1.toList ++ ':' :: ' ' :: layout.text level y.2) ++ t) : x = y ∧ s = t := by
  simp only [List.append_assoc, List.cons_append] at h
  obtain ⟨same_label, values⟩ :=
    word_cancel hx hy (endsWord_cons (by decide) _) (endsWord_cons (by decide) _) h
  obtain ⟨same_value, rest⟩ := value (by simpa using values)
  exact ⟨Prod.ext same_label same_value, rest⟩

/-- A shape can be told from its text, and so can where its text ends. -/
theorem text_cancel {a b : Shape} (ha : a.Proper) (hb : b.Proper) {s t : List Char}
    (hs : Closes s) (ht : Closes t) (h : layout.text level a ++ s = layout.text level b ++ t) :
    a = b ∧ s = t := by
  induction ha generalizing b level s t with
  | word word =>
    have lead := layout.lead_eq level (.word word) hb h
    cases hb with
    | word word' =>
      rw [text_word, text_word] at h
      obtain ⟨rfl, rest⟩ := word_cancel word word' hs.endsWord ht.endsWord h
      exact ⟨rfl, rest⟩
    | quoted _ => cases lead
    | items _ => cases lead
    | record word' _ _ => exact absurd h (layout.word_ne_record level word word' hs)
  | quoted text =>
    have lead := layout.lead_eq level (.quoted text) hb h
    cases hb with
    | word _ => cases lead
    | quoted text' =>
      rw [text_quoted, text_quoted] at h
      obtain ⟨rfl, rest⟩ := Quoted.quote_cancel h
      exact ⟨rfl, rest⟩
    | items _ => cases lead
    | record _ _ _ => cases lead
  | items proper ih =>
    have lead := layout.lead_eq level (.items proper) hb h
    cases hb with
    | word _ => cases lead
    | quoted _ => cases lead
    | items proper' =>
      rw [text_items, text_items] at h
      obtain ⟨rfl, rest⟩ := (layout.items_legible level).enclose_cancel
        (fun x member => layout.starts _ (proper x member))
        (fun y member => layout.starts _ (proper' y member))
        (fun x left y right _ _ hs ht h => ih x left _ (proper' y right) hs ht h) h
      exact ⟨rfl, rest⟩
    | record _ _ _ => cases lead
  | record word labels proper ih =>
    have lead := layout.lead_eq level (.record word labels proper) hb h
    cases hb with
    | word word' => exact absurd h.symm (layout.word_ne_record level word' word ht)
    | quoted _ => cases lead
    | items _ => cases lead
    | record word' labels' proper' =>
      rw [text_record, text_record, List.append_assoc, List.append_assoc] at h
      obtain ⟨left, body⟩ := layout.fields_head level _
      obtain ⟨right, body'⟩ := layout.fields_head level _
      obtain ⟨rfl, bodies⟩ := word_cancel word word' (body ▸ endsWord_cons (by decide) _)
        (body' ▸ endsWord_cons (by decide) _) h
      obtain ⟨rfl, rest⟩ := (layout.fields_legible level).enclose_cancel
        (fun x member => layout.field_starts _ (labels x member))
        (fun y member => layout.field_starts _ (labels' y member))
        (fun x left y right _ _ hs ht => layout.field_cancel _ (labels x left) (labels' y right)
          (ih x left _ (proper' y right) hs ht)) bodies
      exact ⟨rfl, rest⟩

theorem text_injective {a b : Shape} (ha : a.Proper) (hb : b.Proper)
    (h : layout.text level a = layout.text level b) : a = b :=
  (layout.text_cancel level ha hb .nothing .nothing (by rw [h])).1

end Layout

namespace Block

def inlineItems : Block where
  empty := ['[', ']']
  opening := ['[']
  between := [',', ' ']
  closing := [']']

def inlineFields : Block where
  empty := [' ', '\x7b', ' ', ' ', '\x7d']
  opening := [' ', '\x7b', ' ']
  between := [',', ' ']
  closing := [' ', '\x7d']

theorem legible_inlineItems : inlineItems.Legible where
  between_closes rest := .comma (' ' :: rest)
  closing_closes := .bracket
  more := by rintro c rest rest' - ⟨⟩
  some_entry := by rintro c rest rest' begins ⟨⟩; cases begins

theorem legible_inlineFields : inlineFields.Legible where
  between_closes rest := .comma (' ' :: rest)
  closing_closes := .brace
  more := by rintro c rest rest' - ⟨⟩
  some_entry := by rintro c rest rest' begins ⟨⟩; cases begins

end Block

namespace Shape

theorem toList_inlineItems (shape : Shape) (shapes : List Shape) :
    (inlineItems (shape :: shapes)).toList =
      (inline shape).toList ++ Block.inlineItems.others (fun s => (inline s).toList) shapes := by
  induction shapes generalizing shape with
  | nil => simp [inlineItems, Block.others]
  | cons next shapes ih => simp [inlineItems, ih, Block.others, Block.inlineItems]

theorem toList_inlineFields (field : String × Shape) (fields : List (String × Shape)) :
    (inlineFields (field :: fields)).toList =
      field.1.toList ++ ':' :: ' ' :: ((inline field.2).toList ++ Block.inlineFields.others
        (fun f => f.1.toList ++ ':' :: ' ' :: (inline f.2).toList) fields) := by
  induction fields generalizing field with
  | nil => simp [inlineFields, Block.others]
  | cons next fields ih => simp [inlineFields, ih, Block.others, Block.inlineFields]

theorem toList_inline_items (shapes : List Shape) : (items shapes).inline.toList =
    Block.inlineItems.enclose (shapes.map fun s => (inline s).toList) := by
  cases shapes with
  | nil => rfl
  | cons shape shapes =>
    rw [Block.enclose_cons, inline, String.toList_append, String.toList_append, toList_inlineItems]
    simp [Block.inlineItems]

theorem toList_inline_record (name : String) (fields : List (String × Shape)) :
    (record name fields).inline.toList = name.toList ++ Block.inlineFields.enclose
      (fields.map fun f => f.1.toList ++ ':' :: ' ' :: (inline f.2).toList) := by
  cases fields with
  | nil => simp [inline, inlineFields, Block.enclose, Block.inlineFields]
  | cons field fields =>
    rw [Block.enclose_cons]
    simp only [inline, String.toList_append, toList_inlineFields]
    simp [Block.inlineFields]

end Shape

def Layout.inline : Layout where
  text _ shape := shape.inline.toList
  items _ := .inlineItems
  fields _ := .inlineFields
  text_word _ word := by rw [Shape.inline]
  text_quoted _ quoted := by rw [Shape.inline]
  text_items _ := toList_inline_items
  text_record _ := toList_inline_record
  items_legible _ := Block.legible_inlineItems
  fields_legible _ := Block.legible_inlineFields
  items_begin _ := ⟨⟨_, rfl⟩, _, rfl⟩
  fields_begin _ := ⟨⟨_, rfl⟩, _, rfl⟩

theorem Shape.toList_indent_succ (level : Nat) :
    (indent (level + 1)).toList = (indent level).toList ++ [' ', ' ', ' ', ' '] := by
  have longer : 4 * (level + 1) = 4 * level + 4 := by omega
  rw [indent, indent, String.toList_ofList, String.toList_ofList, longer, List.replicate_add]
  rfl

namespace Block

def prettyItems (level : Nat) : Block where
  empty := ['[', ']']
  opening := '[' :: '\n' :: (indent (level + 1)).toList
  between := ',' :: '\n' :: (indent (level + 1)).toList
  closing := ',' :: '\n' :: ((indent level).toList ++ [']'])

def prettyFields (level : Nat) : Block where
  empty := ' ' :: '\x7b' :: '\n' :: ((indent level).toList ++ ['\x7d'])
  opening := ' ' :: '\x7b' :: '\n' :: (indent (level + 1)).toList
  between := ',' :: '\n' :: (indent (level + 1)).toList
  closing := ',' :: '\n' :: ((indent level).toList ++ ['\x7d'])

/-- A line of the next level is told from one of this level that a closing sign begins. -/
theorem deeper_ne (level : Nat) (close : Char) (sign : ' ' ≠ close) (rest rest' : List Char) :
    (indent (level + 1)).toList ++ rest ≠ (indent level).toList ++ close :: rest' := by
  intro h
  rw [toList_indent_succ, List.append_assoc] at h
  exact sign (List.cons.inj (List.append_cancel_left h)).1

theorem legible_prettyItems (level : Nat) : (prettyItems level).Legible where
  between_closes _ := .comma _
  closing_closes _ := .comma _
  more := by
    intro c rest rest' _ h
    exact deeper_ne level ']' (by decide) (c :: rest) rest' (by simpa [prettyItems] using h)
  some_entry := by
    intro c rest rest' _ h
    cases (List.cons.inj (List.cons.inj h).2).1

theorem legible_prettyFields (level : Nat) : (prettyFields level).Legible where
  between_closes _ := .comma _
  closing_closes _ := .comma _
  more := by
    intro c rest rest' _ h
    exact deeper_ne level '\x7d' (by decide) (c :: rest) rest' (by simpa [prettyFields] using h)
  some_entry := by
    intro c rest rest' _ h
    exact deeper_ne level '\x7d' (by decide) (c :: rest) rest' (by simpa [prettyFields] using h)

end Block

namespace Shape

theorem toList_prettyItems (level : Nat) (shape : Shape) (shapes : List Shape) :
    (prettyItems (level + 1) (shape :: shapes)).toList ++ ((indent level).toList ++ [']']) =
      (indent (level + 1)).toList ++ ((prettyAt (level + 1) shape).toList ++
        ((Block.prettyItems level).others (fun s => (prettyAt (level + 1) s).toList) shapes ++
          (Block.prettyItems level).closing)) := by
  induction shapes generalizing shape with
  | nil => simp [prettyItems, Block.others, Block.prettyItems]
  | cons next shapes ih =>
    rw [Block.others_cons, prettyItems]
    simp only [String.toList_append, List.append_assoc, ih]
    simp [Block.prettyItems]

theorem toList_prettyFields (level : Nat) (field : String × Shape)
    (fields : List (String × Shape)) :
    (prettyFields (level + 1) (field :: fields)).toList ++ ((indent level).toList ++ ['\x7d']) =
      (indent (level + 1)).toList ++ (field.1.toList ++ ':' :: ' ' ::
        ((prettyAt (level + 1) field.2).toList ++ ((Block.prettyFields level).others
          (fun f => f.1.toList ++ ':' :: ' ' :: (prettyAt (level + 1) f.2).toList) fields ++
            (Block.prettyFields level).closing))) := by
  induction fields generalizing field with
  | nil => simp [prettyFields, Block.others, Block.prettyFields]
  | cons next fields ih =>
    rw [Block.others_cons, prettyFields]
    simp only [String.toList_append, List.append_assoc, ih]
    simp [Block.prettyFields]

theorem toList_pretty_items (level : Nat) (shapes : List Shape) :
    ((items shapes).prettyAt level).toList =
      (Block.prettyItems level).enclose (shapes.map fun s => (prettyAt (level + 1) s).toList) := by
  cases shapes with
  | nil => simp [prettyAt, Block.enclose, Block.prettyItems]
  | cons shape shapes =>
    have lines := toList_prettyItems level shape shapes
    rw [Block.enclose_cons, prettyAt]
    simp only [String.toList_append, List.append_assoc] at lines ⊢
    simp [lines, Block.prettyItems]

theorem toList_pretty_record (level : Nat) (name : String) (fields : List (String × Shape)) :
    ((record name fields).prettyAt level).toList = name.toList ++
      (Block.prettyFields level).enclose
        (fields.map fun f => f.1.toList ++ ':' :: ' ' :: (prettyAt (level + 1) f.2).toList) := by
  cases fields with
  | nil => simp [prettyAt, prettyFields, Block.enclose, Block.prettyFields]
  | cons field fields =>
    have lines := toList_prettyFields level field fields
    rw [Block.enclose_cons, prettyAt]
    simp only [String.toList_append, List.append_assoc] at lines ⊢
    simp [lines, Block.prettyFields]

end Shape

def Layout.pretty : Layout where
  text level shape := (shape.prettyAt level).toList
  items := .prettyItems
  fields := .prettyFields
  text_word _ word := by rw [prettyAt]
  text_quoted _ quoted := by rw [prettyAt]
  text_items := toList_pretty_items
  text_record := toList_pretty_record
  items_legible := Block.legible_prettyItems
  fields_legible := Block.legible_prettyFields
  items_begin _ := ⟨⟨_, rfl⟩, _, rfl⟩
  fields_begin _ := ⟨⟨_, rfl⟩, _, rfl⟩

namespace Shape

theorem inline_injective {a b : Shape} (ha : a.Proper) (hb : b.Proper) (h : a.inline = b.inline) :
    a = b :=
  Layout.inline.text_injective 0 ha hb (congrArg String.toList h)

theorem pretty_injective {a b : Shape} (ha : a.Proper) (hb : b.Proper) (h : a.pretty = b.pretty) :
    a = b :=
  Layout.pretty.text_injective 0 ha hb (congrArg String.toList h)

/-- Values that proper shapes tell apart are told apart in both layouts. -/
theorem layouts_injective {α : Type} {shape : α → Shape} (proper : ∀ a, (shape a).Proper)
    (injective : Function.Injective shape) :
    (Function.Injective fun a => (shape a).inline) ∧
    (Function.Injective fun a => (shape a).pretty) :=
  ⟨fun a b h => injective (inline_injective (proper a) (proper b) h),
    fun a b h => injective (pretty_injective (proper a) (proper b) h)⟩

end Shape
end Fanout.Text
