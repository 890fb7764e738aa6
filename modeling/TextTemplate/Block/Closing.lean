import TextTemplate.Token

/-!
# Closing tags

Which opening tags are closed is settled before blocks are built, in one pass from the right. The outlook from a
token tells which closing tag would close a loop or a conditional whose body begins there; it is put together
from the outlook from the token behind it or, behind an opening tag that is closed, from the one behind its
closing tag.
-/

namespace TextTemplate

/-- What a token and those behind it close. Each answer is what follows the closing tag. -/
structure Outlook where
  loop : Option (List Outlook)
  chain : Option (List Outlook)
  lastChain : Option (List Outlook)
  own : Option (List Outlook)

namespace Outlook

def loopFrom : List Outlook → Option (List Outlook)
  | [] => none
  | outlook :: _ => outlook.loop

def chainFrom : List Outlook → Option (List Outlook)
  | [] => none
  | outlook :: _ => outlook.chain

def lastChainFrom : List Outlook → Option (List Outlook)
  | [] => none
  | outlook :: _ => outlook.lastChain

def ownOf (later : List Outlook) : Lexeme → Option (List Outlook)
  | .forOpen _ _ _ => loopFrom later
  | .ifOpen _ => chainFrom later
  | _ => none

def ofLexeme (later : List Outlook) (lexeme : Lexeme) : Outlook :=
  let own := ownOf later lexeme
  let onward := own.getD later
  match lexeme with
  | .endOfText => ⟨none, none, none, none⟩
  | .forClose => ⟨some later, chainFrom later, lastChainFrom later, none⟩
  | .elseIf _ => ⟨loopFrom later, chainFrom later, lastChainFrom later, none⟩
  | .otherwise => ⟨loopFrom later, lastChainFrom later, lastChainFrom later, none⟩
  | .ifClose => ⟨loopFrom later, some later, some later, none⟩
  | _ => ⟨loopFrom onward, chainFrom onward, lastChainFrom onward, own⟩

def ofTokens : List Token → List Outlook
  | [] => []
  | token :: rest => let later := ofTokens rest; ofLexeme later token.lexeme :: later

end Outlook

/-- For every token the index just past its closing tag, if it is an opening tag that is closed. -/
def closings (tokens : List Token) : List (Option Nat) :=
  (Outlook.ofTokens tokens).map fun outlook => outlook.own.map fun behind => tokens.length - behind.length

end TextTemplate
