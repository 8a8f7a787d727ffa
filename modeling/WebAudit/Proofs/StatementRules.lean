import Mathlib
import WebAudit.Proofs.ExpressionRules
import WebAudit.Script.Parse

/-!
# Laws obeyed by statements and scripts

The rules of statements obey a law if the rules that they refer to do. With them all rules of a system
are covered: the system in which every rule fails obeys every law, the next system obeys what the system
before it obeys, and so the grammar obeys it after any number of rounds (`Rules.rounds_obey`). A law
therefore holds of every tree that a text is read to (`Law.holds_of_parse?`).
-/

namespace WebAudit.Script

open Std.Do

set_option mvcgen.warning false

namespace Rules

open Rule

variable {law : Law} {r : Rules}

/-! ## Rules that refer to no other -/

@[spec]
theorem goesOn_obeys : r.goesOn.Obeys law := by
  mvcgen [goesOn]
  all_goals simp_all

@[spec]
theorem startsFunction_obeys : r.startsFunction.Obeys law :=
  fits_obeys _

@[spec]
theorem exportedName_obeys : exportedName.Obeys law := by
  mvcgen [exportedName]
  all_goals simp_all

@[spec]
theorem specifier_obeys (importing : Bool) : (r.specifier importing).Obeys law := by
  -- The plain form is an alternative and also part of the marked one, so it gets its triple first.
  unfold specifier
  extract_lets plain marked
  have hplain : plain.Obeys law := by
    mvcgen [plain]
    all_goals simp_all
  clear_value plain
  have hmarked : marked.Obeys law := by
    mvcgen [marked, hplain]
    all_goals simp_all
  exact orElse_obeys hmarked hplain

@[spec]
theorem specifiers_obeys (importing : Bool) : (r.specifiers importing).Obeys law := by
  mvcgen [specifiers]
  all_goals simp_all

@[spec]
theorem fromClause_obeys : fromClause.Obeys law := by
  mvcgen [fromClause]
  all_goals simp_all

@[spec]
theorem namespaceImport_obeys : r.namespaceImport.Obeys law := by
  mvcgen [namespaceImport]
  all_goals simp_all

@[spec]
theorem importClause_obeys : r.importClause.Obeys law := by
  mvcgen [importClause]
  all_goals simp_all

@[spec]
theorem importAlias_obeys : r.importAlias.Obeys law := by
  mvcgen [importAlias]
  all_goals simp_all

@[spec]
theorem loopWord_obeys : loopWord.Obeys law := by
  mvcgen [loopWord]
  all_goals simp_all

@[spec]
theorem startsLet_obeys : r.startsLet.Obeys law :=
  fits_obeys _

@[spec]
theorem interpreterLine_obeys : interpreterLine.Obeys law := by
  mvcgen [interpreterLine]
  all_goals simp_all

@[spec]
theorem settledDeclaration_obeys (d : Rule Node) (hd : d.Obeys law) :
    (r.settledDeclaration d).Obeys law := by
  mvcgen [settledDeclaration, hd]
  all_goals simp_all

@[spec]
theorem jumpStatement_obeys : r.jumpStatement.Obeys law := by
  mvcgen [jumpStatement]
  all_goals simp_all

variable (hr : r.Obey law)

include hr

/-! ## Small parts -/

@[spec]
theorem statementsUntil_obeys (stop : Rule Bool) (hstop : stop.Obeys law) :
    (r.statementsUntil stop).Obeys law := by
  mvcgen [statementsUntil, hstop]
  all_goals simp_all

@[spec]
theorem blockRule_obeys (operatorMayFollow : Bool) : (r.blockRule operatorMayFollow).Obeys law := by
  mvcgen [blockRule]
  all_goals simp_all

@[spec]
theorem headExpression_obeys : r.headExpression.Obeys law := by
  mvcgen [headExpression]
  all_goals simp_all

@[spec]
theorem binding_obeys : r.binding.Obeys law := by
  mvcgen [binding]
  all_goals simp_all

@[spec]
theorem declarator_obeys (x : Context) : (r.declarator x).Obeys law := by
  mvcgen [declarator]
  all_goals simp_all

@[spec]
theorem declarators_obeys : r.declarators.Obeys law := by
  mvcgen [declarators]
  all_goals simp_all

@[spec]
theorem expressionStatement_obeys : r.expressionStatement.Obeys law := by
  mvcgen [expressionStatement]
  all_goals simp_all

/-! ## Functions and classes as declarations -/

@[spec]
theorem functionDeclaration_obeys (operatorMayFollow : Bool) :
    (r.functionDeclaration operatorMayFollow).Obeys law := by
  mvcgen [functionDeclaration]
  all_goals simp_all +zetaDelta
  all_goals split_ifs <;> simp_all

@[spec]
theorem classDeclaration_obeys : r.classDeclaration.Obeys law := by
  mvcgen [classDeclaration]
  all_goals simp_all

/-! ## Declarations of the typed dialects -/

@[spec]
theorem typeAlias_obeys : r.typeAlias.Obeys law := by
  mvcgen [typeAlias]
  all_goals simp_all

@[spec]
theorem interface_obeys : r.interface.Obeys law := by
  mvcgen [interface]
  all_goals simp_all

@[spec]
theorem enumeration_obeys : r.enumeration.Obeys law := by
  mvcgen [enumeration]
  all_goals simp_all

@[spec]
theorem namespaceRule_obeys : r.namespaceRule.Obeys law := by
  mvcgen [namespaceRule]
  all_goals simp_all

@[spec]
theorem ambient_obeys : r.ambient.Obeys law := by
  mvcgen [ambient]
  all_goals simp_all

/-! ## Modules -/

@[spec]
theorem importAttributes_obeys : r.importAttributes.Obeys law := by
  mvcgen [importAttributes]
  all_goals simp_all

@[spec]
theorem importStatement_obeys : r.importStatement.Obeys law := by
  mvcgen [importStatement]
  all_goals simp_all

@[spec]
theorem defaultExport_obeys : r.defaultExport.Obeys law := by
  mvcgen [defaultExport]
  all_goals simp_all

@[spec]
theorem exportStatement_obeys : r.exportStatement.Obeys law := by
  mvcgen [exportStatement]
  all_goals simp_all

/-! ## Loops -/

@[spec]
theorem eachHead_obeys : r.eachHead.Obeys law := by
  mvcgen [eachHead]
  all_goals simp_all

@[spec]
theorem countHead_obeys : r.countHead.Obeys law := by
  mvcgen [countHead]
  all_goals simp_all

@[spec]
theorem forStatement_obeys : r.forStatement.Obeys law := by
  mvcgen [forStatement]
  all_goals simp_all

/-! ## Other statements -/

@[spec]
theorem switchStatement_obeys : r.switchStatement.Obeys law := by
  mvcgen [switchStatement]
  all_goals simp_all

@[spec]
theorem tryStatement_obeys : r.tryStatement.Obeys law := by
  mvcgen [tryStatement]
  all_goals simp_all

@[spec]
theorem ifStatement_obeys : r.ifStatement.Obeys law := by
  mvcgen [ifStatement]
  all_goals simp_all

@[spec]
theorem returnStatement_obeys : r.returnStatement.Obeys law := by
  mvcgen [returnStatement]
  all_goals simp_all

@[spec]
theorem doStatement_obeys : r.doStatement.Obeys law := by
  mvcgen [doStatement]
  all_goals simp_all

@[spec]
theorem wordStatement_obeys (w : String) : (r.wordStatement w).Obeys law := by
  mvcgen [wordStatement]
  all_goals simp_all

@[spec]
theorem softStatement_obeys (w : String) : (r.softStatement w).Obeys law := by
  mvcgen [softStatement]
  all_goals simp_all

@[spec]
theorem braceStatement_obeys : r.braceStatement.Obeys law := by
  mvcgen [braceStatement]
  all_goals simp_all

@[spec]
theorem decoratedStatement_obeys : r.decoratedStatement.Obeys law := by
  mvcgen [decoratedStatement]
  all_goals simp_all

@[spec]
theorem definitionStatement_obeys (isFunction : Bool) :
    (r.definitionStatement isFunction).Obeys law := by
  mvcgen [definitionStatement]
  all_goals simp_all

@[spec]
theorem statementRule_obeys : r.statementRule.Obeys law := by
  mvcgen [statementRule]
  all_goals simp_all

/-! ## Whole scripts -/

@[spec]
theorem script_obeys : r.script.Obeys law := by
  mvcgen [script]
  all_goals simp_all

end Rules

/-! ## The whole grammar -/

theorem Rules.bottom_obey (law : Law) (d : Dialect) : (bottom d).Obey law where
  expression _ := Rule.fail_obeys
  binary _ _ := Rule.fail_obeys
  unary _ := Rule.fail_obeys
  place := Rule.fail_obeys
  construction _ := Rule.fail_obeys
  statement := Rule.fail_obeys
  block _ := Rule.fail_obeys
  type _ := Rule.fail_obeys
  element := Rule.fail_obeys

theorem Rules.Obey.next {law : Law} {r : Rules} (hr : r.Obey law) : r.next.Obey law where
  expression := expressionRule_obeys hr
  binary := binaryRule_obeys hr
  unary := unaryRule_obeys hr
  place := placeRule_obeys hr
  construction := constructionRule_obeys hr
  statement := statementRule_obeys hr
  block := blockRule_obeys hr
  type := typeRule_obeys hr
  element := elementRule_obeys hr

theorem Rules.rounds_obey (law : Law) (d : Dialect) (n : Nat) : (rounds d n).Obey law := by
  induction n with
  | zero => exact bottom_obey law d
  | succ n ih => exact ih.next

/-- **A law holds of the tree of every script.** -/
theorem Law.holds_of_parse? (law : Law) {d : Dialect} {tree : Node}
    (h : parse? d law.source = some tree) : law.Holds tree := by
  rw [parse?] at h
  split at h
  · next hrun =>
    cases h
    have hstart : Cursor.In law.source ⟨law.source, 0⟩ := rfl
    have hscript := Rules.script_obeys (Rules.rounds_obey law d (4 * law.source.length + 16))
    exact (Rule.obeys_iff.mp hscript _ hstart _ _ hrun).2
  · cases h

end WebAudit.Script
