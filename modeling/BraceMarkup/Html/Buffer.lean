import BraceMarkup.Text

namespace BraceMarkup.Html

def pad (width level : Nat) : Text :=
  List.replicate (width * level) ' '

/-- The indentations of the levels asked for so far. They are kept, and the next one is made from
the last. -/
structure Indents (width : Nat) where
  table : Array Text := #[[]]
  size_pos : 0 < table.size := by decide
  getElem_eq : ∀ (i : Nat) (h : i < table.size), table[i] = pad width i := by simp [pad]

namespace Indents

variable {width : Nat}

def next (t : Indents width) : Indents width where
  table := t.table.push (t.table.back t.size_pos ++ List.replicate width ' ')
  size_pos := by simp
  getElem_eq := by
    intro i h
    have hpos := t.size_pos
    rw [Array.getElem_push]
    split
    next hi => exact t.getElem_eq i hi
    next hi =>
      have hlast : width * (t.table.size - 1) + width = width * i := by
        rw [Array.size_push] at h
        rw [← Nat.mul_succ]
        congr 1
        omega
      rw [Array.back_eq_getElem, t.getElem_eq, pad, pad, List.replicate_append_replicate, hlast]

def grow : Nat → Indents width → Indents width
  | 0, t => t
  | n + 1, t => grow n t.next

def upTo (t : Indents width) (level : Nat) : Indents width :=
  grow (level + 1 - t.table.size) t

theorem size_grow (n : Nat) (t : Indents width) : (grow n t).table.size = t.table.size + n := by
  induction n generalizing t with
  | zero => rfl
  | succ n ih =>
    rw [grow, ih, next, Array.size_push]
    omega

theorem lt_size_upTo (t : Indents width) (level : Nat) : level < (t.upTo level).table.size := by
  rw [upTo, size_grow]
  omega

end Indents

structure Buffer where
  width : Nat
  indents : Indents width := {}
  pieces : List Text := []

namespace Buffer

def text (b : Buffer) : Text :=
  b.pieces.reverse.flatten

def append (b : Buffer) (s : Text) : Buffer :=
  if s.isEmpty then b else { b with pieces := s :: b.pieces }

def newline (b : Buffer) : Buffer :=
  { b with pieces := ['\n'] :: b.pieces }

def indent (b : Buffer) (level : Nat) : Buffer :=
  have h := b.indents.lt_size_upTo level
  { b with indents := b.indents.upTo level }.append (b.indents.upTo level).table[level]

def line (b : Buffer) (level : Nat) (s : Text) : Buffer :=
  ((b.indent level).append s).newline

def indentSigned (b : Buffer) (level : Int) : Except OutOfRange Buffer :=
  if !fitsWord level then .error .word
  else if _h : 0 ≤ level then .ok (b.indent level.toNat)
  else if _h : 0 ≤ b.indents.table.size + level then
    .ok (b.append b.indents.table[(b.indents.table.size + level).toNat])
  else .error .levels

def lineSigned (b : Buffer) (level : Int) (s : Text) : Except OutOfRange Buffer := do
  return ((← b.indentSigned level).append s).newline

@[simp] theorem text_append (b : Buffer) (s : Text) : (b.append s).text = b.text ++ s := by
  cases s <;> simp [text, append]

@[simp] theorem text_newline (b : Buffer) : b.newline.text = b.text ++ ['\n'] := by
  simp [text, newline]

@[simp] theorem text_indent (b : Buffer) (level : Nat) :
    (b.indent level).text = b.text ++ pad b.width level := by
  rw [indent, text_append, Indents.getElem_eq]
  rfl

@[simp] theorem width_append (b : Buffer) (s : Text) : (b.append s).width = b.width := by
  cases s <;> rfl

@[simp] theorem width_newline (b : Buffer) : b.newline.width = b.width := rfl

@[simp] theorem width_indent (b : Buffer) (level : Nat) : (b.indent level).width = b.width :=
  width_append { b with indents := b.indents.upTo level } _

end Buffer

end BraceMarkup.Html
