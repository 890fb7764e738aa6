import TextTemplate.Block
import TextTemplate.Token
import TextTemplate.Text

namespace TextTemplate

inductive Mark where
  | interpolation (source : Text) (line : Nat)
  | binding (name expression : Text) (line : Nat)
  | loop (index : Option Text) (item path : Text) (line : Nat)
  | loopEnd
  | branch (kind : BranchKind) (condition : Option Text) (line : Nat)
  | conditionalEnd
  deriving DecidableEq, Repr

namespace Mark

def opensLoop : Mark → Bool
  | loop _ _ _ _ => true
  | _ => false

def closesLoop : Mark → Bool
  | loopEnd => true
  | _ => false

def counts : Mark → NodeCounts
  | interpolation _ _ => ⟨1, 0, 0, 0⟩
  | binding _ _ _ => ⟨0, 0, 0, 1⟩
  | loop _ _ _ _ => ⟨0, 1, 0, 0⟩
  | loopEnd => .zero
  | branch _ _ _ => .zero
  | conditionalEnd => ⟨0, 0, 1, 0⟩

end Mark

/-- Marks, each behind a text, and a last text. -/
inductive Script where
  | text (t : Text)
  | mark (t : Text) (m : Mark) (rest : Script)
  deriving DecidableEq, Repr

namespace Script

def append : Script → Script → Script
  | text t, text u => text (t ++ u)
  | text t, mark u m rest => mark (t ++ u) m rest
  | mark t m rest, s => mark t m (append rest s)

instance : Append Script := ⟨append⟩

def of (m : Mark) : Script := mark [] m (text [])

def cutBreaks (opened closed : Bool) (t : Text) : Text :=
  let inner := if opened then t.dropFirstBreak else t
  if closed then inner.dropLastBreak else inner

def trim (opened closed : Bool) : Script → Script
  | text t => text (cutBreaks opened closed t)
  | mark t m rest => mark (cutBreaks opened m.closesLoop t) m (rest.trim m.opensLoop closed)

def trimmed (s : Script) : Script := s.trim false false

def counts : Script → NodeCounts
  | text _ => .zero
  | mark _ m rest => m.counts.add rest.counts

end Script

namespace Node

mutual

def script : Node → Script
  | text content => .text content
  | interpolation source line => .of (.interpolation source line)
  | binding name expression line => .of (.binding name expression line)
  | loop index item path body line => .of (.loop index item path line) ++ (scripts body ++ .of .loopEnd)
  | conditional branches _ => branchScripts branches ++ .of .conditionalEnd

def scripts : List Node → Script
  | [] => .text []
  | node :: rest => node.script ++ scripts rest

def branchScripts : List Branch → Script
  | [] => .text []
  | .mk kind condition body line :: rest =>
      .of (.branch kind condition line) ++ (scripts body ++ branchScripts rest)

end

end Node

def Lexeme.isInterpolation : Lexeme → Bool
  | interpolation _ => true
  | _ => false

def Lexeme.isBinding : Lexeme → Bool
  | binding _ _ => true
  | _ => false

def Token.script (token : Token) : Script :=
  let line := token.position.line
  match token.lexeme with
  | .text content => .text content
  | .interpolation source => .of (.interpolation source line)
  | .binding name expression => .of (.binding name expression line)
  | .forOpen index item path => .of (.loop index item path line)
  | .forClose => .of .loopEnd
  | .ifOpen condition => .of (.branch .first (some condition) line)
  | .elseIf condition => .of (.branch .elseIf (some condition) line)
  | .otherwise => .of (.branch .otherwise none line)
  | .ifClose => .of .conditionalEnd
  | .endOfText => .text []

def Script.ofTokens : List (Token × Bool) → Script
  | [] => .text []
  | (token, asText) :: rest => (if asText then .text token.raw else token.script) ++ ofTokens rest

namespace Script

@[simp] theorem text_append_text (t u : Text) : text t ++ text u = text (t ++ u) := rfl

@[simp] theorem text_append_mark (t u : Text) (m : Mark) (rest : Script) :
    text t ++ mark u m rest = mark (t ++ u) m rest := rfl

@[simp] theorem mark_append (t : Text) (m : Mark) (rest s : Script) : mark t m rest ++ s = mark t m (rest ++ s) := rfl

@[simp] theorem nil_append (s : Script) : text [] ++ s = s := by cases s <;> rfl

@[simp] theorem append_nil (s : Script) : s ++ text [] = s := by
  induction s with
  | text t => rw [text_append_text, List.append_nil]
  | mark t m rest ih => rw [mark_append, ih]

theorem append_assoc (a b c : Script) : a ++ b ++ c = a ++ (b ++ c) := by
  induction a with
  | text t => cases b <;> cases c <;> simp
  | mark t m rest ih => rw [mark_append, mark_append, mark_append, ih]

theorem of_append (m : Mark) (s : Script) : of m ++ s = mark [] m s := by rw [of, mark_append, nil_append]

theorem ofTokens_append (first second : List (Token × Bool)) :
    ofTokens (first ++ second) = ofTokens first ++ ofTokens second := by
  induction first with
  | nil => rw [List.nil_append, ofTokens, nil_append]
  | cons head rest ih =>
      obtain ⟨token, asText⟩ := head
      rw [List.cons_append, ofTokens, ih, ofTokens, append_assoc]

def firstCloses (closed : Bool) : Script → Bool
  | text _ => closed
  | mark _ m _ => m.closesLoop

def lastOpens (opened : Bool) : Script → Bool
  | text _ => opened
  | mark _ m rest => rest.lastOpens m.opensLoop

structure Quiet (s : Script) : Prop where
  first : s.firstCloses false = false
  last : s.lastOpens false = false

theorem firstCloses_append (closed : Bool) (a b : Script) :
    (a ++ b).firstCloses closed = a.firstCloses (b.firstCloses closed) := by
  cases a <;> cases b <;> rfl

theorem lastOpens_append (opened : Bool) (a b : Script) :
    (a ++ b).lastOpens opened = b.lastOpens (a.lastOpens opened) := by
  induction a generalizing opened with
  | text t => cases b <;> rfl
  | mark t m rest ih => rw [mark_append, lastOpens, ih, lastOpens]

theorem Quiet.append {a b : Script} (ha : a.Quiet) (hb : b.Quiet) : (a ++ b).Quiet where
  first := by rw [firstCloses_append, hb.first, ha.first]
  last := by rw [lastOpens_append, ha.last, hb.last]

theorem quiet_text (t : Text) : (text t).Quiet := ⟨rfl, rfl⟩

theorem quiet_of {m : Mark} (first : m.closesLoop = false) (last : m.opensLoop = false) : (of m).Quiet := ⟨first, last⟩

theorem trim_append {opened closed : Bool} {a b : Script} (last : a.lastOpens opened = false)
    (first : b.firstCloses closed = false) :
    (a ++ b).trim opened closed = a.trim opened false ++ b.trim false closed := by
  induction a generalizing opened with
  | text t =>
      obtain rfl : opened = false := last
      cases b with
      | text u =>
          obtain rfl : closed = false := first
          rfl
      | mark u m rest =>
          have quiet : m.closesLoop = false := first
          simp [trim, cutBreaks, quiet]
  | mark t m rest ih => rw [mark_append, trim, ih last, trim, mark_append]

theorem Quiet.trimmed_append {a b : Script} (ha : a.Quiet) (hb : b.Quiet) :
    (a ++ b).trimmed = a.trimmed ++ b.trimmed :=
  trim_append ha.last hb.first

theorem cutBreaks_nil (opened closed : Bool) : cutBreaks opened closed [] = [] := by
  cases opened <;> cases closed <;> rfl

theorem trim_of_append (opened closed : Bool) (m : Mark) (s : Script) :
    (of m ++ s).trim opened closed = of m ++ s.trim m.opensLoop closed := by
  rw [of_append, of_append, trim, cutBreaks_nil]

theorem trim_append_of (opened closed : Bool) (m : Mark) (s : Script) :
    (s ++ of m).trim opened closed = s.trim opened m.closesLoop ++ of m := by
  induction s generalizing opened with
  | text t => simp [of, trim, cutBreaks_nil]
  | mark t n rest ih => rw [mark_append, trim, ih, trim, mark_append]

@[simp] theorem trimmed_of (m : Mark) : (of m).trimmed = of m := by
  simp [trimmed, of, trim, cutBreaks_nil]

def cutFirst : Script → Script
  | text t => text t.dropFirstBreak
  | mark t m rest => mark t.dropFirstBreak m rest

def cutLast : Script → Script
  | text t => text t.dropLastBreak
  | mark t m rest => mark t m rest.cutLast

theorem trim_closed (opened : Bool) (s : Script) : s.trim opened true = (s.trim opened false).cutLast := by
  induction s generalizing opened with
  | text t => rfl
  | mark t m rest ih => rw [trim, ih, trim, cutLast]

theorem trim_opened {s : Script} (quiet : s.firstCloses false = false) :
    s.trim true false = (s.trim false false).cutFirst := by
  cases s with
  | text t => rfl
  | mark t m rest =>
      have open_ : m.closesLoop = false := quiet
      simp [trim, cutFirst, cutBreaks, open_]

theorem Quiet.trim_both {s : Script} (quiet : s.Quiet) : s.trim true true = s.trimmed.cutFirst.cutLast := by
  rw [trim_closed, trim_opened quiet.first]
  rfl

def firstText : Script → Text
  | text t => t
  | mark t _ _ => t

def lastText : Script → Text
  | text t => t
  | mark _ _ rest => rest.lastText

theorem firstText_of_append (m : Mark) (s : Script) : (of m ++ s).firstText = [] := by
  rw [of_append]
  rfl

theorem lastText_append_of (s : Script) (m : Mark) : (s ++ of m).lastText = [] := by
  induction s with
  | text t => rfl
  | mark t n rest ih => rw [mark_append, lastText, ih]

theorem cutFirst_of_firstText {s : Script} (empty : s.firstText = []) : s.cutFirst = s := by
  cases s <;> cases empty <;> rfl

theorem cutLast_of_lastText {s : Script} (empty : s.lastText = []) : s.cutLast = s := by
  induction s with
  | text t =>
      cases empty
      rfl
  | mark t m rest ih => rw [cutLast, ih empty]

theorem cutFirst_text_append (t : Text) {s : Script} (empty : s.firstText = []) :
    (text t ++ s).cutFirst = text t.dropFirstBreak ++ s := by
  cases s <;> cases empty <;> simp [cutFirst]

theorem cutLast_append_text {s : Script} (empty : s.lastText = []) (t : Text) :
    (s ++ text t).cutLast = s ++ text t.dropLastBreak := by
  induction s with
  | text u =>
      cases empty
      simp [cutLast]
  | mark u m rest ih => rw [mark_append, cutLast, ih empty, mark_append]

end Script

end TextTemplate
