import BraceMarkup.Element.Block
import BraceMarkup.Proofs.Text.Margin
import BraceMarkup.Proofs.Token.Block

namespace BraceMarkup

open Text

namespace Element

variable {body first v : Text} {others : List Text}

lemma exists_lines_eq (body : Text) : ∃ first others, body.lines = first :: others :=
  List.exists_cons_of_ne_nil (lines_ne_nil body)

lemma blockLines_of_lines (h : body.lines = first :: others) :
    blockLines body = first.trim :: breakLines (unlines (dropMargins others)) := by
  rw [blockLines, h]

lemma solid_of_lines (h : body.lines = first :: others) :
    solid body = solid first ++ solid others.flatten := by
  rw [← unlines_lines body, solid_unlines, h, List.flatten_cons, solid_append]

lemma solid_flatten_blockLines (body : Text) : solid (blockLines body).flatten = solid body := by
  obtain ⟨first, others, h⟩ := exists_lines_eq body
  rw [blockLines_of_lines h, List.flatten_cons, solid_append, solid_trim,
    solid_flatten_breakLines, solid_unlines, solid_flatten_dropMargins, solid_of_lines h]

lemma blockContent_eq (body : Text) : blockContent body = (nonblank (blockLines body)).map trimEnd :=
  rfl

lemma solid_flatten_blockContent (body : Text) : solid (blockContent body).flatten = solid body := by
  rw [blockContent_eq, solid_flatten_map fun line _ => solid_trimEnd line, solid_flatten_nonblank,
    solid_flatten_blockLines]

lemma isBlankText_of_mem_blockContent (h : v ∈ blockContent body) : v.isBlankText = false := by
  obtain ⟨line, hline, rfl⟩ := List.mem_map.mp h
  rw [isBlankText_congr (solid_trimEnd line)]
  exact isBlankText_of_mem_nonblank hline

lemma isBlank_getLast_of_mem_blockContent (h : v ∈ blockContent body) :
    ∀ c ∈ v.getLast?, isBlank c = false := by
  obtain ⟨line, -, rfl⟩ := List.mem_map.mp h
  exact fun c => getLast?_trimEnd

lemma blockContent_eq_nil_iff : blockContent body = [] ↔ body.isBlankText = true := by
  rw [← solid_eq_nil_iff, ← solid_flatten_blockContent]
  exact eq_nil_iff_solid_flatten fun v => isBlankText_of_mem_blockContent

end Element

open Element

/-- Whatever script or style token is given at any call on a source, its element holds all of its
body that is not blank, in lines that are not blank and do not end in a blank, and it holds no line
exactly if all of the body is blank. -/
theorem Cursor.block_keeps_content (s : Text) (n : Nat) (t : Token)
    (h : (ofText s).answer n = .ok (some t)) (hk : t.kind.isEmbedded = true) :
    ∃ (body : Text) (values : List Text), t.IsBlock body ∧ t.body = .ok body ∧
      ofBlock t = .tag (blockName t.kind) [] (values.map (.raw · t.span)) t.span ∧
      solid values.flatten = solid body ∧
      (∀ v ∈ values, v.isBlankText = false ∧ ∀ c ∈ v.getLast?, isBlank c = false) ∧
      (values = [] ↔ body.isBlankText = true) := by
  obtain ⟨body, hblock⟩ := exists_isBlock_of_answer h hk
  refine ⟨body, blockContent body, hblock, hblock.body_eq, ?_, solid_flatten_blockContent body, ?_,
    blockContent_eq_nil_iff⟩
  · rw [ofBlock, hblock.interior_eq]
  · exact fun v hv => ⟨isBlankText_of_mem_blockContent hv, isBlank_getLast_of_mem_blockContent hv⟩

def brokenBlock : Token :=
  ⟨.style, "css\x7b a\n\n \tb\x0cc \n  d\x7d".toList, ⟨2, 19, ⟨1, 3⟩, ⟨4, 4⟩⟩⟩

theorem Cursor.block_keeps_content_broken :
    (ofText "p css\x7b a\n\n \tb\x0cc \n  d\x7d;".toList).answer 1 = .ok (some brokenBlock) ∧
    ∃ values : List Text,
      ofBlock brokenBlock = .tag "style".toList [] (values.map (.raw · brokenBlock.span))
        brokenBlock.span ∧
      solid values.flatten = "abcd".toList ∧ values ≠ [] := by
  have hanswer : (ofText "p css\x7b a\n\n \tb\x0cc \n  d\x7d;".toList).answer 1 =
      .ok (some brokenBlock) := by decide +kernel
  obtain ⟨body, values, -, hbody, hblock, hsolid, -, hnil⟩ :=
    block_keeps_content _ 1 brokenBlock hanswer rfl
  obtain rfl : " a\n\n \tb\x0cc \n  d".toList = body := Except.ok.inj hbody
  refine ⟨hanswer, values, hblock, hsolid.trans (by decide), ?_⟩
  rw [Ne, hnil]
  decide

end BraceMarkup
