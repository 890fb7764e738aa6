import TextTemplate.Proofs.Token.Form

namespace TextTemplate
open Lexer

namespace Lexer

inductive Plain : Text → List Piece → Prop
  | done : Plain [] []
  | tag {l : Lexeme} {raw rest : Text} {ps : List Piece} :
      l.Form raw rest → Plain rest ps → Plain (raw ++ rest) (.tag l raw :: ps)
  | char {c : Char} {rest : Text} {ps : List Piece} :
      (∀ (l : Lexeme) (raw behind : Text), c :: rest = raw ++ behind → ¬l.Form raw behind) → Plain rest ps →
      Plain (c :: rest) (.char c :: ps)

end Lexer

def Lexeme.isTag : Lexeme → Bool
  | .text _ => false
  | .endOfText => false
  | _ => true

def Token.pieces (token : Token) : List Piece :=
  match token.lexeme with
  | .text content => content.map .char
  | .endOfText => []
  | l => [.tag l token.raw]

namespace Lexeme.Form

variable {l : Lexeme} {raw rest : Text}

theorem isTag (h : l.Form raw rest) : l.isTag = true := by cases h <;> rfl

theorem raw_ne_nil (h : l.Form raw rest) : raw ≠ [] := by cases h <;> exact List.cons_ne_nil _ _

end Lexeme.Form

namespace Lexer

theorem Plain.cut_eq {t : Text} {ps : List Piece} (h : Plain t ps) : cut t = ps := by
  induction h with
  | done => rfl
  | tag form _ ih => rw [cut_of_tag (tag?_of_form form) rfl form.raw_ne_nil, ih]
  | @char c rest ps noTag _ ih =>
      have plain : tag? (c :: rest) = none := by
        refine Option.eq_none_iff_forall_ne_some.mpr fun ⟨l, behind⟩ found => ?_
        obtain ⟨raw, split, form⟩ := exists_form found
        exact noTag l raw behind split form
      rw [cut_of_char plain, ih]

theorem plain_cut : (t : Text) → Plain t (cut t)
  | [] => .done
  | c :: rest => by
      cases found : tag? (c :: rest) with
      | none =>
          rw [cut_of_char found]
          refine .char (fun l raw behind split form => ?_) (plain_cut rest)
          rw [split, tag?_of_form form] at found
          cases found
      | some tag =>
          obtain ⟨l, behind⟩ := tag
          obtain ⟨raw, split, form⟩ := exists_form found
          have full := form.raw_ne_nil
          have shorter : behind.length < (c :: rest).length := by
            rw [split, List.length_append]
            exact Nat.lt_add_of_pos_left (List.length_pos_iff.mpr full)
          rw [cut_of_tag found split full, split]
          exact .tag form (plain_cut behind)
termination_by t => t.length
decreasing_by
  · exact Nat.lt_succ_self rest.length
  · exact shorter

theorem plain_iff {t : Text} {ps : List Piece} : Plain t ps ↔ cut t = ps := by
  constructor
  · exact Plain.cut_eq
  · rintro rfl
    exact plain_cut t

theorem Plain.exists_form {t : Text} {ps : List Piece} (h : Plain t ps) {l : Lexeme} {raw : Text}
    (member : .tag l raw ∈ ps) : ∃ rest, l.Form raw rest ∧ raw ++ rest <:+ t := by
  induction h with
  | done => cases member
  | tag form _ ih =>
      rcases List.mem_cons.mp member with same | later
      · cases same
        exact ⟨_, form, List.suffix_rfl⟩
      · obtain ⟨rest, own, part⟩ := ih later
        exact ⟨rest, own, List.suffix_append_of_suffix part⟩
  | char _ _ ih =>
      rcases List.mem_cons.mp member with same | later
      · cases same
      · obtain ⟨rest, own, part⟩ := ih later
        exact ⟨rest, own, part.trans (List.suffix_cons _ _)⟩

theorem pieces_pushChar (c : Char) (position : Position) (tokens : List Token) :
    (pushChar c position tokens).flatMap Token.pieces = .char c :: tokens.flatMap Token.pieces := by
  rcases tokens with _ | ⟨⟨l, place, raw⟩, rest⟩
  · rfl
  · cases l <;> rfl

theorem pieces_of_isTag {token : Token} (tag : token.lexeme.isTag = true) :
    token.pieces = [.tag token.lexeme token.raw] := by
  obtain ⟨l, place, raw⟩ := token
  cases l with
  | text => cases tag
  | endOfText => cases tag
  | _ => rfl

theorem pieces_assemble (position : Position) {ps : List Piece} (tags : ∀ l raw, .tag l raw ∈ ps → l.isTag = true) :
    (assemble position ps).flatMap Token.pieces = ps := by
  induction ps generalizing position with
  | nil => rfl
  | cons p ps ih =>
      have more := fun l raw member => tags l raw (List.mem_cons_of_mem p member)
      cases p with
      | char c => rw [assemble, pieces_pushChar, ih _ more]
      | tag l raw =>
          have own : Token.pieces ⟨l, position, raw⟩ = [.tag l raw] := pieces_of_isTag (tags l raw List.mem_cons_self)
          rw [assemble, List.flatMap_cons, own, ih _ more, List.singleton_append]

theorem pieces_scan (template : Text) : (Token.scan template).flatMap Token.pieces = cut template := by
  refine pieces_assemble .start fun l raw member => ?_
  obtain ⟨rest, form, -⟩ := (plain_cut template).exists_form member
  exact form.isTag

theorem exists_form_of_scan {template : Text} {token : Token} (scanned : token ∈ Token.scan template)
    (tag : token.lexeme.isTag = true) :
    ∃ rest, token.lexeme.Form token.raw rest ∧ token.raw ++ rest <:+ template := by
  have member : .tag token.lexeme token.raw ∈ (Token.scan template).flatMap Token.pieces := by
    refine List.mem_flatMap.mpr ⟨token, scanned, ?_⟩
    rw [pieces_of_isTag tag]
    exact List.mem_singleton_self _
  rw [pieces_scan] at member
  exact (plain_cut template).exists_form member

end Lexer

/--
Taken apart into tags and literal characters, the tokens of a template are the plain reading of it and no other. Put
together they are this reading with the characters between tags joined to texts.
-/
theorem scan_plain (template : Text) (ps : List Piece) :
    (Plain template ps ↔ (Token.scan template).flatMap Token.pieces = ps) ∧
      (Plain template ps → Token.scan template = assemble .start ps) := by
  constructor
  · rw [plain_iff, pieces_scan]
  · intro plain
    rw [← plain.cut_eq]
    rfl

end TextTemplate
