import TextTemplate.Proofs.Token.Plain
import TextTemplate.Proofs.Token.Spelling

namespace TextTemplate
open Lexer

def Token.alone (l : Lexeme) (raw : Text) : List Token := [⟨l, .start, raw⟩, ⟨.endOfText, Position.start.skip raw, []⟩]

theorem TakesBreak.alone {taken rest : Text} (h : TakesBreak taken rest) : TakesBreak taken [] := by
  cases h with
  | pair => exact .pair []
  | single => exact .single []
  | nothing => exact .nothing nofun nofun

namespace Lexeme.Form

variable {l : Lexeme} {raw rest : Text}

theorem alone (h : l.Form raw rest) : l.Form raw [] := by
  cases h with
  | interpolation body => exact .interpolation body
  | forOpen blank names blank' full opens path closes => exact .forOpen blank names blank' full opens path closes
  | forClose => exact .forClose
  | ifOpen body => exact .ifOpen body
  | elseIf body => exact .elseIf body
  | otherwise => exact .otherwise
  | ifClose => exact .ifClose
  | binding blank full named blank' blank'' body takes => exact .binding blank full named blank' blank'' body takes.alone

theorem spellable (h : l.Form raw rest) : l.Spellable := by
  cases h with
  | interpolation body => exact body
  | forOpen _ names _ _ _ path _ =>
      cases names with
      | item named => exact ⟨nofun, named, path⟩
      | indexed first _ second =>
          refine ⟨?_, second, path⟩
          rintro _ ⟨⟩
          exact first
  | forClose => trivial
  | ifOpen body => exact body
  | elseIf body => exact body
  | otherwise => trivial
  | ifClose => trivial
  | binding _ _ named _ _ body _ => exact ⟨named, body⟩

end Lexeme.Form

theorem tag?_shown_alone {l : Lexeme} (h : l.Spellable) : tag? l.shown = some (l, []) := by
  have found := tag?_shown h []
  rw [List.append_nil] at found
  cases l <;> exact found

theorem scan_of_tag {l : Lexeme} {raw : Text} (found : tag? raw = some (l, [])) : Token.scan raw = Token.alone l raw := by
  have full : raw ≠ [] := by
    rintro rfl
    cases found
  calc Token.scan raw
    _ = assemble .start (cut raw) := rfl
    _ = assemble .start (.tag l raw :: cut []) := by rw [cut_of_tag found (List.append_nil raw).symm full]
    _ = Token.alone l raw := rfl

/--
Whatever tag a template holds, however it is written there: its own characters and its standard spelling are each a
template of this one tag.
-/
theorem scan_respelled {template : Text} {token : Token} (scanned : token ∈ Token.scan template)
    (tag : token.lexeme.isTag = true) :
    Token.scan token.raw = Token.alone token.lexeme token.raw ∧
      Token.scan token.lexeme.shown = Token.alone token.lexeme token.lexeme.shown := by
  obtain ⟨rest, form, -⟩ := exists_form_of_scan scanned tag
  constructor
  · have found := tag?_of_form form.alone
    rw [List.append_nil] at found
    exact scan_of_tag found
  · exact scan_of_tag (tag?_shown_alone form.spellable)

def loose : Text := "Hi<let\tn =  $\x7b<if(a)>$\x7d>\r\n!".toList

def looseTag : Token where
  lexeme := .binding "n".toList "<if(a)>$".toList
  position := ⟨1, 3⟩
  raw := "<let\tn =  $\x7b<if(a)>$\x7d>\r\n".toList

theorem scan_respelled_loose :
    looseTag ∈ Token.scan loose ∧ looseTag.lexeme.isTag = true ∧
      Token.scan looseTag.raw = Token.alone looseTag.lexeme looseTag.raw ∧
      Token.scan "<let n=$\x7b<if(a)>$\x7d>".toList = Token.alone looseTag.lexeme "<let n=$\x7b<if(a)>$\x7d>".toList := by
  have scanned : looseTag ∈ Token.scan loose := by decide +kernel
  exact ⟨scanned, rfl, scan_respelled scanned rfl⟩

end TextTemplate
