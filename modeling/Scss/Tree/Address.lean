import Scss.Tree.Statement

/-!
The addresses that a stylesheet loads modules and files from, wherever in it they stand. Addresses
are written out, so they are known before anything is evaluated.
-/
namespace Scss.Statement

mutual

def addresses : Statement → List String
  | useModule url _ _ _ => [url]
  | forwardModule url _ _ _ => [url]
  | importSheets urls _ => urls
  | rule _ body _ => addressesIn body
  | property declaration => declarationAddresses declaration
  | atRule _ _ body _ => optionalAddresses body
  | atRoot _ _ body _ => addressesIn body
  | media _ body _ => addressesIn body
  | supports _ body _ => addressesIn body
  | container _ body _ => addressesIn body
  | ifElse branches _ => branchAddresses branches
  | eachLoop _ _ body _ => addressesIn body
  | forLoop _ _ _ _ body _ => addressesIn body
  | whileLoop _ body _ => addressesIn body
  | mixinDef _ _ body _ => addressesIn body
  | functionDef _ _ body _ => addressesIn body
  | includeMixin _ _ _ content _ => contentAddresses content
  | _ => []

def addressesIn : List Statement → List String
  | [] => []
  | statement :: rest => statement.addresses ++ addressesIn rest

def declarationAddresses : Declaration Statement → List String
  | ⟨_, _, _, nested, _⟩ => addressesIn nested

def optionalAddresses : Option (List Statement) → List String
  | none => []
  | some body => addressesIn body

def branchAddresses : List (Branch Statement) → List String
  | [] => []
  | ⟨_, body, _⟩ :: rest => addressesIn body ++ branchAddresses rest

def contentAddresses : Option (ContentBlock Statement) → List String
  | none => []
  | some ⟨_, body⟩ => addressesIn body

end

end Scss.Statement
