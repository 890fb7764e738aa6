import Mathlib.Data.List.Induction
import TextTemplate.Proofs.Token.Plain

/-!
# Tokens tile the template

The tokens of a template stand one behind the other and leave nothing out (`Tiles`): each begins where the one before it
ends, the characters they stand for are those of the template, and its end alone comes last. The line and column of a
token can therefore be counted off the template before it. In bytes, a token begins and ends between characters, and so
does what a closing character ends when its byte is searched for.
-/

namespace TextTemplate
open Lexer

namespace Position

def behind (t : Text) : Position := ⟨1 + t.count '\n', 1 + (t.reverse.takeWhile (· ≠ '\n')).length⟩

theorem skip_start (t : Text) : start.skip t = behind t := by
  induction t using List.reverseRecOn with
  | nil => rfl
  | append_singleton t c ih =>
      rw [skip_append, ih, skip_cons, skip_nil, after]
      by_cases newline : c = '\n'
      · simp [behind, newline]
        omega
      · simp [behind, newline, List.count_append]
        omega

end Position

/-! ## Tiles -/

def Token.source (token : Token) : Text :=
  match token.lexeme with
  | .text content => content
  | _ => token.raw

def Lexeme.isText : Lexeme → Bool
  | .text _ => true
  | _ => false

namespace Lexer

/-- Tokens that cover a text from a place on, the last of them its end. -/
inductive Tiles : Position → List Token → Text → Prop
  | stop (p : Position) : Tiles p [⟨.endOfText, p, []⟩] []
  | text {p : Position} {content t : Text} {next : Token} {tokens : List Token} :
      content ≠ [] → next.lexeme.isText = false → Tiles (p.skip content) (next :: tokens) t →
      Tiles p (⟨.text content, p, []⟩ :: next :: tokens) (content ++ t)
  | tag {p : Position} {l : Lexeme} {raw t : Text} {tokens : List Token} :
      l.isTag = true → Tiles (p.skip raw) tokens t → Tiles p (⟨l, p, raw⟩ :: tokens) (raw ++ t)

theorem isText_of_isTag {l : Lexeme} (h : l.isTag = true) : l.isText = false := by
  cases l <;> first | rfl | cases h

theorem source_of_isTag {l : Lexeme} (h : l.isTag = true) (p : Position) (raw : Text) :
    Token.source ⟨l, p, raw⟩ = raw := by
  cases l <;> first | rfl | cases h

theorem pushChar_tag {l : Lexeme} (h : l.isText = false) (c : Char) (p q : Position) (raw : Text)
    (tokens : List Token) :
    pushChar c p (⟨l, q, raw⟩ :: tokens) = ⟨.text [c], p, []⟩ :: ⟨l, q, raw⟩ :: tokens := by
  cases l <;> first | rfl | cases h

namespace Tiles

variable {p : Position} {tokens : List Token} {t : Text}

theorem pushChar {c : Char} (h : Tiles (p.after c) tokens t) : Tiles p (pushChar c p tokens) (c :: t) := by
  cases h with
  | stop => exact .text (List.cons_ne_nil c []) rfl (.stop _)
  | text full next more => exact .text (List.cons_ne_nil c _) next more
  | tag isTag more =>
      have next := isText_of_isTag isTag
      rw [pushChar_tag next]
      exact .text (List.cons_ne_nil c []) next (.tag isTag more)

theorem source_eq (h : Tiles p tokens t) : tokens.flatMap Token.source = t := by
  induction h with
  | stop => rfl
  | text _ _ _ ih => rw [List.flatMap_cons, ih]; rfl
  | tag isTag _ ih => rw [List.flatMap_cons, ih, source_of_isTag isTag]

theorem ends (h : Tiles p tokens t) :
    ∃ front stop, tokens = front ++ [stop] ∧ stop.lexeme = .endOfText ∧
      ∀ token ∈ front, token.lexeme ≠ .endOfText := by
  induction h with
  | stop p => exact ⟨[], _, rfl, rfl, List.forall_mem_nil _⟩
  | text _ _ _ ih =>
      obtain ⟨front, stop, split, ends, inside⟩ := ih
      rw [split]
      exact ⟨_ :: front, stop, rfl, ends, List.forall_mem_cons.mpr ⟨by simp, inside⟩⟩
  | tag isTag _ ih =>
      obtain ⟨front, stop, split, ends, inside⟩ := ih
      rw [split]
      refine ⟨_ :: front, stop, rfl, ends, List.forall_mem_cons.mpr ⟨?_, inside⟩⟩
      rintro rfl
      cases isTag

theorem full (h : Tiles p tokens t) : ∀ token ∈ tokens, token.lexeme ≠ .text [] := by
  induction h with
  | stop => simp
  | text full _ _ ih => exact List.forall_mem_cons.mpr ⟨by simpa using full, ih⟩
  | tag isTag _ ih =>
      refine List.forall_mem_cons.mpr ⟨?_, ih⟩
      rintro rfl
      cases isTag

theorem apart (h : Tiles p tokens t) :
    ∀ before first second after, tokens = before ++ first :: second :: after →
      first.lexeme.isText = true → second.lexeme.isText = false := by
  induction h with
  | stop =>
      intro before first second after split
      have size := congrArg List.length split
      simp only [List.length_append, List.length_cons, List.length_nil] at size
      omega
  | text _ next _ ih =>
      intro before first second after split isText
      cases before with
      | nil =>
          cases split
          exact next
      | cons _ before => exact ih before first second after (List.cons.inj split).2 isText
  | tag isTag _ ih =>
      intro before first second after split isText
      cases before with
      | nil =>
          cases split
          rw [isText_of_isTag isTag] at isText
          cases isText
      | cons _ before => exact ih before first second after (List.cons.inj split).2 isText

theorem position_cons {first : Token} {rest : List Token} (here : first.position = p)
    (later : ∀ before token after, rest = before ++ token :: after →
      token.position = (p.skip first.source).skip (before.flatMap Token.source)) :
    ∀ before token after, first :: rest = before ++ token :: after →
      token.position = p.skip (before.flatMap Token.source) := by
  intro before token after split
  cases before with
  | nil =>
      cases split
      exact here
  | cons other before =>
      obtain ⟨rfl, rest_split⟩ := List.cons.inj split
      rw [later before token after rest_split, List.flatMap_cons, Position.skip_append]

theorem position_eq (h : Tiles p tokens t) :
    ∀ before token after, tokens = before ++ token :: after →
      token.position = p.skip (before.flatMap Token.source) := by
  induction h with
  | stop p =>
      refine position_cons rfl fun before token after split => ?_
      simp at split
  | text _ _ _ ih => exact position_cons rfl ih
  | tag isTag _ ih =>
      refine position_cons rfl ?_
      rwa [source_of_isTag isTag]

end Tiles

theorem tiles_assemble {t : Text} {ps : List Piece} (plain : Plain t ps) (p : Position) :
    Tiles p (assemble p ps) t := by
  induction plain generalizing p with
  | done => exact .stop p
  | tag form _ ih => exact .tag form.isTag (ih _)
  | char _ _ ih => exact (ih _).pushChar

theorem tiles_scan (template : Text) : Tiles .start (Token.scan template) template :=
  tiles_assemble (plain_cut template) .start

theorem position_scan {template : Text} {before after : List Token} {token : Token}
    (split : Token.scan template = before ++ token :: after) :
    token.position = .behind (before.flatMap Token.source) := by
  rw [(tiles_scan template).position_eq before token after split, Position.skip_start]

theorem source_scan {template : Text} {before after : List Token} {token : Token}
    (split : Token.scan template = before ++ token :: after) :
    template = before.flatMap Token.source ++ (token.source ++ after.flatMap Token.source) := by
  rw [← List.flatMap_cons, ← List.flatMap_append, ← split, (tiles_scan template).source_eq]

end Lexer

/-! ## Bytes -/

namespace Text

def bytes (t : Text) : List UInt8 := t.flatMap String.utf8EncodeChar

def byteIndex? (close : Char) (t : Text) : Option Nat := (bytes t).findIdx? (· = UInt8.ofNat close.toNat)

def IsBoundary (t : Text) (n : Nat) : Prop := (String.Pos.Raw.mk n).IsValid (String.ofList t)

theorem utf8ByteSize_ofList (t : Text) : (String.ofList t).utf8ByteSize = utf8Size t := by
  induction t with
  | nil => rfl
  | cons c t ih => simp [String.ofList_cons, ih]

theorem isBoundary_append (t u : Text) : (t ++ u).IsBoundary (utf8Size t) := by
  refine String.Pos.Raw.isValid_iff_exists_append.mpr ⟨String.ofList t, String.ofList u, String.ofList_append, ?_⟩
  rw [String.Pos.Raw.ext_iff]
  exact (utf8ByteSize_ofList t).symm

theorem length_bytes (t : Text) : (bytes t).length = utf8Size t := by
  induction t with
  | nil => rfl
  | cons c t ih =>
      rw [bytes, List.flatMap_cons, List.length_append, String.length_utf8EncodeChar]
      exact congrArg (c.utf8Size + ·) ih

theorem encode_ascii {c : Char} (narrow : c.toNat < 128) : String.utf8EncodeChar c = [UInt8.ofNat c.toNat] :=
  if_pos (Nat.le_of_lt_succ narrow)

theorem le_toNat_of_mem_encode {c : Char} (wide : 128 ≤ c.toNat) {b : UInt8} (member : b ∈ String.utf8EncodeChar c) :
    128 ≤ b.toNat := by
  have long : ¬c.val.toNat ≤ 127 := Nat.not_le.mpr wide
  simp only [String.utf8EncodeChar, if_neg long] at member
  split at member
  · simp only [List.mem_cons, List.not_mem_nil, or_false] at member
    rcases member with rfl | rfl <;> rw [UInt8.toNat_ofNat'] <;> omega
  · split at member
    · simp only [List.mem_cons, List.not_mem_nil, or_false] at member
      rcases member with rfl | rfl | rfl <;> rw [UInt8.toNat_ofNat'] <;> omega
    · simp only [List.mem_cons, List.not_mem_nil, or_false] at member
      rcases member with rfl | rfl | rfl | rfl <;> rw [UInt8.toNat_ofNat'] <;> omega

section Search

variable {close : Char}

theorem mem_encode_iff (ascii : close.toNat < 128) (c : Char) :
    UInt8.ofNat close.toNat ∈ String.utf8EncodeChar c ↔ c = close := by
  have small : (UInt8.ofNat close.toNat).toNat = close.toNat := by
    rw [UInt8.toNat_ofNat']
    omega
  by_cases narrow : c.toNat < 128
  · rw [encode_ascii narrow, List.mem_singleton, ← UInt8.toNat_inj, small, UInt8.toNat_ofNat', ← Char.toNat_inj]
    omega
  · -- The bytes of a longer character are none of an ASCII one.
    have other : c ≠ close := by
      rintro rfl
      exact narrow ascii
    refine iff_of_false (fun member => ?_) other
    have large := le_toNat_of_mem_encode (Nat.not_lt.mp narrow) member
    omega

theorem byteIndex?_eq_none (ascii : close.toNat < 128) {t : Text} (fresh : close ∉ t) : byteIndex? close t = none := by
  refine List.findIdx?_eq_none_iff.mpr fun b member => ?_
  obtain ⟨c, place, own⟩ := List.mem_flatMap.mp member
  rw [decide_eq_false_iff_not]
  rintro rfl
  exact fresh ((mem_encode_iff ascii c).mp own ▸ place)

theorem byteIndex?_append (ascii : close.toNat < 128) {before : Text} (fresh : close ∉ before) (behind : Text) :
    byteIndex? close (before ++ close :: behind) = some (utf8Size before) := by
  have nowhere : (bytes before).findIdx? (· = UInt8.ofNat close.toNat) = none := byteIndex?_eq_none ascii fresh
  have here : (bytes (close :: behind)).findIdx? (· = UInt8.ofNat close.toNat) = some 0 := by
    rw [bytes, List.flatMap_cons, encode_ascii ascii]
    simp [List.findIdx?_cons]
  have split : bytes (before ++ close :: behind) = bytes before ++ bytes (close :: behind) := List.flatMap_append
  rw [byteIndex?, split, List.findIdx?_append, nowhere, here, length_bytes, Option.none_or, Option.map_some,
    Nat.zero_add]

theorem byteIndex?_eq_search (ascii : close.toNat < 128) (body : Text) :
    byteIndex? close body = (search close body).map fun left => utf8Size (body.take (body.length - left)) := by
  by_cases member : close ∈ body
  · obtain ⟨inner, behind, rfl, fresh⟩ := List.eq_append_cons_of_mem member
    have size : (inner ++ close :: behind).length - (behind.length + 1) = inner.length := by
      rw [List.length_append, List.length_cons]
      omega
    rw [byteIndex?_append ascii fresh, search_append fresh, Option.map_some, size, List.take_left]
  · rw [byteIndex?_eq_none ascii member, search_eq_none member, Option.map_none]

theorem isBoundary_of_byteIndex? (ascii : close.toNat < 128) (before : Text) {body : Text} {n : Nat}
    (found : byteIndex? close body = some n) :
    (before ++ body).IsBoundary (utf8Size before + n) ∧ (before ++ body).IsBoundary (utf8Size before + n + 1) := by
  by_cases member : close ∈ body
  · obtain ⟨inner, behind, rfl, fresh⟩ := List.eq_append_cons_of_mem member
    rw [byteIndex?_append ascii fresh, Option.some.injEq] at found
    have one : close.utf8Size = 1 := Char.utf8Size_eq_one_iff.mpr (Nat.le_of_lt_succ ascii)
    have left := isBoundary_append (before ++ inner) (close :: behind)
    have right := isBoundary_append (before ++ (inner ++ [close])) behind
    simp only [utf8Size_append, utf8Size_cons, utf8Size_nil, one, found, List.append_assoc, List.singleton_append]
      at left right
    exact ⟨left, right⟩
  · rw [byteIndex?_eq_none ascii member] at found
    cases found

end Search

def cutAt? : Nat → Text → Option (Text × Text)
  | 0, t => some ([], t)
  | _ + 1, [] => none
  | n + 1, c :: t =>
      if c.utf8Size ≤ n + 1 then (cutAt? (n + 1 - c.utf8Size) t).map fun cut => (c :: cut.1, cut.2) else none

theorem cutAt?_append (t u : Text) : cutAt? (utf8Size t) (t ++ u) = some (t, u) := by
  induction t with
  | nil => cases u <;> rfl
  | cons c t ih =>
      obtain ⟨n, size⟩ : ∃ n, utf8Size (c :: t) = n + 1 :=
        Nat.exists_eq_add_one.mpr (Nat.add_pos_left c.utf8Size_pos _)
      have left : n + 1 - c.utf8Size = utf8Size t := by
        rw [← size, utf8Size_cons, Nat.add_sub_cancel_left]
      have enough : c.utf8Size ≤ n + 1 := by
        rw [← size, utf8Size_cons]
        exact Nat.le_add_right _ _
      rw [size, List.cons_append, cutAt?, if_pos enough, left, ih]
      rfl

end Text

open Text

namespace Lexer

/-- The body of a tag and the rest behind it, cut out on either side of the closing byte. -/
def sliced? (close : Char) (suffix body : Text) : Option (Text × Text) := do
  let n ← byteIndex? close body
  guard (n ≠ 0)
  let (inner, _) ← cutAt? n body
  let (_, behind) ← cutAt? (n + 1) body
  return (inner, ← suffix.isPrefixOf? behind)

theorem sliced?_append {close : Char} (ascii : close.toNat < 128) (suffix : Text) {inner : Text} (body : IsBody close inner)
    (behind : Text) :
    sliced? close suffix (inner ++ close :: behind) = (suffix.isPrefixOf? behind).map fun rest => (inner, rest) := by
  have one : close.utf8Size = 1 := Char.utf8Size_eq_one_iff.mpr (Nat.le_of_lt_succ ascii)
  have full : utf8Size inner ≠ 0 := by
    obtain ⟨c, more, rfl⟩ := List.exists_cons_of_ne_nil body.1
    exact (Nat.add_pos_left c.utf8Size_pos _).ne'
  have next : cutAt? (utf8Size inner + 1) (inner ++ close :: behind) = some (inner ++ [close], behind) := by
    have cut := cutAt?_append (inner ++ [close]) behind
    rwa [utf8Size_append, utf8Size_cons, utf8Size_nil, one, List.append_assoc] at cut
  rw [sliced?, byteIndex?_append ascii body.2, Option.bind_eq_bind, Option.bind_some, guard, if_pos full,
    cutAt?_append, next]
  change ((suffix.isPrefixOf? behind).bind fun rest => some (inner, rest)) = _
  cases suffix.isPrefixOf? behind <;> rfl

theorem enclosed_eq_sliced? {close : Char} (ascii : close.toNat < 128) (suffix body : Text) :
    (enclosed close suffix body body.length none).1 = sliced? close suffix body := by
  by_cases member : close ∈ body
  · obtain ⟨inner, behind, rfl, fresh⟩ := List.eq_append_cons_of_mem member
    have size : (inner ++ close :: behind).length = inner.length + (behind.length + 1) := by simp
    rw [enclosed, Lookout.find, search_append fresh, size]
    simp only
    split
    · rename_i empty
      obtain rfl : inner = [] := List.length_eq_zero_iff.mp (by omega)
      rw [sliced?, byteIndex?_append ascii fresh]
      rfl
    · rename_i some_
      have full : inner ≠ [] := by
        rintro rfl
        simp at some_
      rw [sliced?_append ascii suffix ⟨full, fresh⟩, Nat.add_sub_cancel, List.take_left, List.append_cons,
        List.drop_left' (by simp)]
  · rw [enclosed, Lookout.find, search_eq_none member, sliced?, byteIndex?_eq_none ascii member]
    rfl

theorem Searches.ascii {t suffix body : Text} {close : Char} {made : Text × Text → Lexeme × Text}
    (h : Searches t close suffix body made) : close.toNat < 128 := by
  cases h <;> decide

/--
What the scan does at a place, with the searches it has seen: it cuts a tag off between characters, it searches only for
the end of a tag, and what it takes from a search is what the closing byte cuts, which stands between characters.
-/
structure CutsAt (template before t : Text) (seen : Lookouts) : Prop where
  tag : ∀ l rest, (tagAt t t.length seen).1 = some (l, rest) →
    ∃ raw, t = raw ++ rest ∧ IsBoundary template (utf8Size before + utf8Size raw)
  searched : (tagAt t t.length seen).2 ≠ seen → ∃ close suffix body made, Searches t close suffix body made
  sliced : ∀ close suffix body made, Searches t close suffix body made →
    (tagAt t t.length seen).1 = (sliced? close suffix body).map made ∧
      ∃ opening, t = opening ++ body ∧ IsBoundary template (utf8Size before + utf8Size opening) ∧
        ∀ n, byteIndex? close body = some n →
          IsBoundary template (utf8Size before + utf8Size opening + n) ∧
            IsBoundary template (utf8Size before + utf8Size opening + n + 1)

theorem searches_of_seen {t : Text} {seen : Lookouts} (searched : (tagAt t t.length seen).2 ≠ seen) :
    ∃ close suffix body made, Searches t close suffix body made := by
  have way := tagAt_way t
  generalize tagAt t t.length = answer at way searched
  cases way with
  | fixed => exact absurd rfl searched
  | loop => exact absurd rfl searched
  | brace search => exact ⟨_, _, _, _, search⟩
  | paren search => exact ⟨_, _, _, _, search⟩
  | nothing => exact absurd rfl searched

theorem cutsAt {template before t : Text} (split : template = before ++ t) {seen : Lookouts}
    (hold : seen.Hold template) : CutsAt template before t seen := by
  have answer : (tagAt t t.length seen).1 = tag? t := (tagAt_eq hold ⟨before, split.symm⟩).1
  subst split
  refine ⟨fun l rest found => ?_, searches_of_seen, fun close suffix body made search => ⟨?_, ?_⟩⟩
  · obtain ⟨raw, rfl, -⟩ := exists_form (answer.symm.trans found)
    have behind := isBoundary_append (before ++ raw) rest
    rw [List.append_assoc, utf8Size_append] at behind
    exact ⟨raw, rfl, behind⟩
  · rw [answer, tag?_of_searches search, enclosed_eq_sliced? search.ascii]
  · obtain ⟨opening, rfl⟩ := search.suffix
    refine ⟨opening, rfl, ?_⟩
    rw [← List.append_assoc, ← utf8Size_append]
    exact ⟨isBoundary_append _ _, fun n found => isBoundary_of_byteIndex? search.ascii _ found⟩

end Lexer

/--
The characters of the tokens are the template, and its end is the last token and no other. Texts hold something and do
not stand side by side. A token stands where counting the characters before it says, and the template may be cut there
and behind it. Wherever a closing character is looked for by its byte, it is found where it stands as a character, and
the template may be cut on either side of it. So the scan, wherever it is, cuts and searches between characters alone,
and takes what the bytes say.
-/
theorem scan_tiles (template : Text) :
    (Token.scan template).flatMap Token.source = template ∧
      (∃ front stop, Token.scan template = front ++ [stop] ∧ stop.lexeme = .endOfText ∧
        ∀ token ∈ front, token.lexeme ≠ .endOfText) ∧
      (∀ token ∈ Token.scan template, token.lexeme ≠ .text []) ∧
      (∀ before first second after, Token.scan template = before ++ first :: second :: after →
        first.lexeme.isText = true → second.lexeme.isText = false) ∧
      (∀ before token after, Token.scan template = before ++ token :: after →
        token.position = .behind (before.flatMap Token.source) ∧
          IsBoundary template (utf8Size (before.flatMap Token.source)) ∧
          IsBoundary template (utf8Size (before.flatMap Token.source) + utf8Size token.source)) ∧
      (∀ before body, template = before ++ body → IsBoundary template (utf8Size before) ∧
        ∀ close : Char, close.toNat < 128 →
          byteIndex? close body = (search close body).map (fun left => utf8Size (body.take (body.length - left))) ∧
            ∀ n, byteIndex? close body = some n →
              IsBoundary template (utf8Size before + n) ∧ IsBoundary template (utf8Size before + n + 1)) ∧
      ∀ before t, template = before ++ t → ∀ seen : Lookouts, seen.Hold template → CutsAt template before t seen := by
  have tiles := tiles_scan template
  refine ⟨tiles.source_eq, tiles.ends, tiles.full, tiles.apart, ?_, ?_, fun _ _ split _ hold => cutsAt split hold⟩
  · intro before token after split
    have whole := source_scan split
    have left := isBoundary_append (before.flatMap Token.source) (token.source ++ after.flatMap Token.source)
    have right := isBoundary_append (before.flatMap Token.source ++ token.source) (after.flatMap Token.source)
    rw [← whole] at left
    rw [List.append_assoc, ← whole, utf8Size_append] at right
    exact ⟨position_scan split, left, right⟩
  · rintro before body rfl
    refine ⟨isBoundary_append before body, fun close ascii => ⟨byteIndex?_eq_search ascii body, fun n found => ?_⟩⟩
    exact isBoundary_of_byteIndex? ascii before found

end TextTemplate
