import StepMachine.Regex.Term

/-! # How a term begins

A look at a term tells whether it begins with one character that takes part as it is written,
whatever the case of letters. Branches and repetitions use this to pass over places where
nothing can match, and a search uses it to choose where to start.
-/
namespace StepMachine.Regex

namespace CharTest

/-- The test takes characters as they are written, whatever the mode says about case. -/
def isExact (m : Mode) : CharTest → Bool
  | .any | .allBut _ => false
  | .only a => !(m.ignoreCase && m.isCased a)
  | .oneOf _ members => !(m.ignoreCase && members.any (Member.isCased m))

/-- The test stands for several forms of a letter. -/
def isFolded (m : Mode) : CharTest → Bool
  | .any => false
  | .only a | .allBut a => m.ignoreCase && m.isCased a && !(m.siblings (m.small a)).isEmpty
  | .oneOf _ members => m.ignoreCase && members.any (Member.isCased m)

end CharTest

/-- What a term begins with. -/
inductive Lead where
  /-- Nothing at all has to be done. -/
  | nothing
  /-- An exact test in some mode. -/
  | test (mode : Mode) (test : CharTest)
  | other

namespace Lead

/-- The next character does not rule the term out. -/
def allows (text : Array Nat) (offset : Nat) : Lead → Bool
  | nothing | other => true
  | test m t => (text[offset]?).any (t.holds m)

/-- The literal that comes next, if `otherwise` is the one that comes after the term. -/
def literal? (otherwise : Option Nat) : Lead → Option Nat
  | nothing => otherwise
  | test _ (.only code) => some code
  | test .. | other => none

end Lead

namespace Term

/-- What the term begins with. -/
def lead : Term → Mode → Lead
  | empty, _ => .nothing
  | char t, m => if t.isExact m then .test m t else .other
  | seq a b, m =>
    match a.lead m with
    | .nothing => b.lead m
    | known => known
  | switched on off body, m => body.lead (m.adjust on off)
  | _, _ => .other

/-- The test that is the whole term, and its mode. -/
def asTest? : Term → Mode → Option (Mode × CharTest)
  | char t, m => some (m, t)
  | switched on off body, m => body.asTest? (m.adjust on off)
  | _, _ => none

/-- The term is a choice between branches. -/
def isChoice : Term → Bool
  | either .. => true
  | _ => false

/-- There is nothing in the term but groups without content. -/
def isVoid : Term → Bool
  | empty => true
  | seq a b => a.isVoid && b.isVoid
  | capture _ body | switched _ _ body => body.isVoid
  | _ => false

/-- The exact literal that is written first. -/
def headLiteral? (m : Mode) : Term → Option Nat
  | char (.only a) => if (CharTest.only a).isExact m then some a else none
  | seq a _ => a.headLiteral? m
  | _ => none

/-- The exact literals that the branches begin with, if all do. -/
def headLiterals? (m : Mode) : Term → Option (List Nat)
  | either a b => do return (← a.headLiteral? m) :: (← b.headLiterals? m)
  | t => (t.headLiteral? m).map ([·])

/-- A literal or a class of which a search asks that every match begins with it, however the
case of letters counts. A class that comes after a group without content is not asked for. -/
def firstTest? : Term → Mode → Option CharTest
  | char (.only a), m => if (CharTest.only a).isExact m then some (.only a) else none
  | char (.oneOf negated members), m =>
    let cased : Member → Bool
      | .code a => m.isCased a
      | .range first last => (Member.range first last).isCased m
      | .kind .. => false
    if m.ignoreCase && members.any cased then none else some (.oneOf negated members)
  | seq a b, m =>
    if a.isVoid then
      match b.firstTest? m with
      | some (.only a) => some (.only a)
      | _ => none
    else a.firstTest? m
  | either a b, m => ((either a b).headLiterals? m).map fun codes => .oneOf false (codes.map .code)
  | capture _ body, m => body.firstTest? m
  | switched on off body, m => body.firstTest? (m.adjust on off)
  | _, _ => none

end Term

end StepMachine.Regex
