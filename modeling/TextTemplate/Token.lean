import TextTemplate.Text
import TextTemplate.Text.Escaped

namespace TextTemplate

structure Position where
  line : Nat
  column : Nat
  deriving DecidableEq, Repr

namespace Position

def start : Position := ⟨1, 1⟩

def after (p : Position) (c : Char) : Position :=
  if c = '\n' then ⟨p.line + 1, 1⟩ else ⟨p.line, p.column + 1⟩

def skip (p : Position) (t : Text) : Position := t.foldl after p

@[simp] theorem skip_nil (p : Position) : p.skip [] = p := rfl

@[simp] theorem skip_cons (p : Position) (c : Char) (t : Text) : p.skip (c :: t) = (p.after c).skip t := rfl

@[simp] theorem skip_append (p : Position) (t u : Text) : p.skip (t ++ u) = (p.skip t).skip u :=
  List.foldl_append

def shown (p : Position) : Text := Text.ofNat p.line ++ ':' :: Text.ofNat p.column

end Position

inductive Lexeme where
  | text (content : Text)
  | interpolation (source : Text)
  | forOpen (index : Option Text) (item path : Text)
  | forClose
  | ifOpen (condition : Text)
  | elseIf (condition : Text)
  | otherwise
  | ifClose
  | binding (name expression : Text)
  | endOfText
  deriving DecidableEq, Repr

namespace Lexeme

def shown : Lexeme → Text
  | text content => "text(".toList ++ Text.Escaped.quote content ++ [')']
  | interpolation source => "$\x7b".toList ++ source ++ ['\x7d']
  | forOpen (some index) item path =>
      "<for|".toList ++ index ++ ", ".toList ++ item ++ "| of=".toList ++ path ++ ['>']
  | forOpen none item path => "<for|".toList ++ item ++ "| of=".toList ++ path ++ ['>']
  | forClose => "</for>".toList
  | ifOpen condition => "<if(".toList ++ condition ++ ")>".toList
  | elseIf condition => "<else-if(".toList ++ condition ++ ")>".toList
  | otherwise => "<else>".toList
  | ifClose => "</if>".toList
  | binding name expression => "<let ".toList ++ name ++ "=$\x7b".toList ++ expression ++ "\x7d>".toList
  | endOfText => "EOF".toList

end Lexeme

structure Token where
  lexeme : Lexeme
  position : Position
  raw : Text
  deriving DecidableEq, Repr

end TextTemplate
