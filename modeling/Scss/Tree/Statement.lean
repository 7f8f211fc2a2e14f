import Scss.Tree.Expr

/-!
Statements as they are written. A stylesheet is a list of statements, and blocks nest.
-/
namespace Scss

/-- A selector before the enclosing one is put into it. -/
structure SelectorText where
  text : Template
  line : Nat

/-- Which contexts `@at-root` keeps or leaves. -/
inductive AtRootQuery where
  | keep (names : List String)
  | leave (names : List String)
deriving DecidableEq

/-- Which members `@forward` lets through. -/
inductive ForwardFilter where
  | only (names : List String)
  | allBut (names : List String)
deriving DecidableEq

inductive MessageKind where
  | debug
  | warn
  | error
deriving DecidableEq

/-- One branch of a conditional; the last may have no test. -/
structure Branch (σ : Type) where
  test : Option Expr
  body : List σ
  line : Nat

/-- A property with a value, with nested properties, or with both. -/
structure Declaration (σ : Type) where
  property : Template
  value : Option Expr
  important : Bool
  nested : List σ
  line : Nat

structure KeyframeBlock (σ : Type) where
  selectors : List String
  declarations : List (Declaration σ)
  line : Nat

structure ContentBlock (σ : Type) where
  params : Parameters
  body : List σ

inductive Statement where
  | rule (selector : SelectorText) (body : List Statement) (line : Nat)
  | property (declaration : Declaration Statement)
  | customProperty (name value : Template) (line : Nat)
  | assign (qualifier : Option String) (name : String) (value : Expr) (default global : Bool)
      (line : Nat)
  /-- An at-rule without a grammar of its own. -/
  | atRule (name : String) (value : Template) (body : Option (List Statement)) (line : Nat)
  | atRoot (selector : Option SelectorText) (query : Option AtRootQuery) (body : List Statement)
      (line : Nat)
  | media (query : Template) (body : List Statement) (line : Nat)
  | supports (condition : Template) (body : List Statement) (line : Nat)
  | container (query : Template) (body : List Statement) (line : Nat)
  | keyframes (keyword : String) (name : Template) (blocks : List (KeyframeBlock Statement))
      (line : Nat)
  | comment (text : String) (line : Nat)
  | ifElse (branches : List (Branch Statement)) (line : Nat)
  | eachLoop (names : List String) (list : Expr) (body : List Statement) (line : Nat)
  | forLoop (name : String) (first last : Expr) (inclusive : Bool) (body : List Statement)
      (line : Nat)
  | whileLoop (condition : Expr) (body : List Statement) (line : Nat)
  | mixinDef (name : String) (params : Parameters) (body : List Statement) (line : Nat)
  | functionDef (name : String) (params : Parameters) (body : List Statement) (line : Nat)
  | returnValue (value : Expr) (line : Nat)
  | includeMixin (qualifier : Option String) (name : String) (args : List (Argument Expr))
      (content : Option (ContentBlock Statement)) (line : Nat)
  | contentSlot (args : List (Argument Expr)) (line : Nat)
  | useModule (url : String) (given : Option String) (config : List (String × Expr)) (line : Nat)
  | forwardModule (url : String) (affix : Option String) (filter : Option ForwardFilter) (line : Nat)
  | importSheets (urls : List String) (line : Nat)
  | message (kind : MessageKind) (value : Expr) (line : Nat)
  | extend (selector : Template) (optional : Bool) (line : Nat)

namespace Statement

def line : Statement → Nat
  | rule _ _ line => line
  | property declaration => declaration.line
  | customProperty _ _ line => line
  | assign _ _ _ _ _ line => line
  | atRule _ _ _ line => line
  | atRoot _ _ _ line => line
  | media _ _ line => line
  | supports _ _ line => line
  | container _ _ line => line
  | keyframes _ _ _ line => line
  | comment _ line => line
  | ifElse _ line => line
  | eachLoop _ _ _ line => line
  | forLoop _ _ _ _ _ line => line
  | whileLoop _ _ line => line
  | mixinDef _ _ _ line => line
  | functionDef _ _ _ line => line
  | returnValue _ line => line
  | includeMixin _ _ _ _ line => line
  | contentSlot _ line => line
  | useModule _ _ _ line => line
  | forwardModule _ _ _ line => line
  | importSheets _ line => line
  | message _ _ line => line
  | extend _ _ line => line

end Statement

end Scss
