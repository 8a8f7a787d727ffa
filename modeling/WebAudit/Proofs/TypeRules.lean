import Mathlib
import WebAudit.Proofs.RuleLaws
import WebAudit.Script.Grammar.Callable
import WebAudit.Script.Grammar.Element

/-!
# Laws obeyed by types, elements and functions

The rules of a grammar refer to each other through a system of rules. If all rules of the system obey a
law (`Rules.Obey`), the rules that are made from them obey it: here those of types, of elements and of
what functions and classes have in common.
-/

namespace WebAudit.Script

open Rule Std.Do

set_option mvcgen.warning false

/-- All rules that other rules refer to obey a law. -/
structure Rules.Obey (law : Law) (r : Rules) : Prop where
  expression (x : Context) : (r.expression x).Obeys law
  binary (x : Context) (least : Nat) : (r.binary x least).Obeys law
  unary (x : Context) : (r.unary x).Obeys law
  place : r.place.Obeys law
  construction (x : Context) : (r.construction x).Obeys law
  statement : r.statement.Obeys law
  block (operatorMayFollow : Bool) : (r.block operatorMayFollow).Obeys law
  type (lineEnds : Bool) : (r.type lineEnds).Obeys law
  element : r.element.Obeys law

namespace Rules

attribute [spec] Obey.expression Obey.binary Obey.unary Obey.place Obey.construction Obey.statement
  Obey.block Obey.type Obey.element

instance : Lawful PropertyName := ⟨fun law n => Keeps law n.nodes⟩
instance : Lawful FunctionParts := ⟨fun law f => Keeps law f.nodes⟩

variable {law : Law} {r : Rules}

@[simp] theorem keeps_propertyName {n : PropertyName} : Keeps law n ↔ Keeps law n.nodes := .rfl
@[simp] theorem keeps_functionParts {f : FunctionParts} : Keeps law f ↔ Keeps law f.nodes := .rfl

/-! ## Rules that refer to no other -/

@[spec]
theorem name_obeys : r.name.Obeys law := by
  mvcgen [name]
  all_goals simp_all

@[spec]
theorem isWordNext_obeys : isWordNext.Obeys law := by
  mvcgen [isWordNext]

@[spec]
theorem parameterModifier_obeys : parameterModifier.Obeys law := by
  mvcgen [parameterModifier]
  all_goals simp_all

@[spec]
theorem modifierOf_obeys (ws : List String) : (modifierOf ws).Obeys law := by
  mvcgen [modifierOf]
  all_goals simp_all

@[spec]
theorem reference_obeys : reference.Obeys law := by
  mvcgen [reference]
  all_goals simp_all

@[spec]
theorem elementWord_obeys : elementWord.Obeys law := by
  mvcgen [elementWord]
  all_goals simp_all

@[spec]
theorem elementName_obeys : elementName.Obeys law := by
  mvcgen [elementName]
  all_goals simp_all

@[spec]
theorem attributeText_obeys (quote : Char) : (attributeText quote).Obeys law := by
  mvcgen [attributeText]
  all_goals simp_all

@[spec]
theorem classModifier_obeys : r.classModifier.Obeys law := by
  mvcgen [classModifier]
  all_goals simp_all

@[spec]
theorem memberEnd_obeys (afterOperand : Bool) : (r.memberEnd afterOperand).Obeys law := by
  mvcgen [memberEnd]
  all_goals simp_all

variable (hr : r.Obey law)

include hr

/-! ## Values -/

@[spec]
theorem value_obeys (x : Context) : (r.value x).Obeys law := by
  mvcgen [value]
  all_goals simp_all

@[spec]
theorem sequence_obeys (x : Context) : (r.sequence x).Obeys law := by
  mvcgen [sequence]
  all_goals simp_all

@[spec]
theorem arguments_obeys : r.arguments.Obeys law := by
  mvcgen [arguments]
  all_goals simp_all

/-! ## Parts of types -/

@[spec]
theorem typeArguments_obeys : r.typeArguments.Obeys law := by
  mvcgen [typeArguments]
  all_goals simp_all

@[spec]
theorem optionalTypeArguments_obeys : r.optionalTypeArguments.Obeys law := by
  mvcgen [optionalTypeArguments]
  all_goals simp_all

@[spec]
theorem typeParameter_obeys : r.typeParameter.Obeys law := by
  mvcgen [typeParameter]
  all_goals simp_all

@[spec]
theorem typeParameters_obeys : r.typeParameters.Obeys law := by
  mvcgen [typeParameters]
  all_goals simp_all

@[spec]
theorem typeAnnotation_obeys (lineEnds : Bool) : Obeys law <| r.typeAnnotation lineEnds := by
  unfold typeAnnotation
  mvcgen
  all_goals simp_all

@[spec]
theorem optionalAnnotation_obeys (lineEnds : Bool) : Obeys law <| r.optionalAnnotation lineEnds := by
  unfold optionalAnnotation
  mvcgen
  all_goals simp_all

@[spec]
theorem decoratorBody_obeys : r.decoratorBody.Obeys law := by
  mvcgen [decoratorBody]
  all_goals simp_all

@[spec]
theorem decorator_obeys : r.decorator.Obeys law := by
  mvcgen [decorator]
  all_goals simp_all

@[spec]
theorem decorators_obeys : r.decorators.Obeys law := by
  mvcgen [decorators]
  all_goals simp_all

@[spec]
theorem propertyName_obeys : r.propertyName.Obeys law := by
  mvcgen [propertyName]
  all_goals simp_all

/-! ## Parameters and signatures -/

@[spec]
theorem optionalDefault_obeys (x : Context) : (r.optionalDefault x).Obeys law := by
  mvcgen [optionalDefault]
  all_goals simp_all

@[spec]
theorem parameter_obeys : r.parameter.Obeys law := by
  mvcgen [parameter]
  all_goals simp_all

@[spec]
theorem parameters_obeys : r.parameters.Obeys law := by
  mvcgen [parameters]
  all_goals simp_all

@[spec]
theorem typePredicate_obeys (lineEnds : Bool) : (r.typePredicate lineEnds).Obeys law := by
  mvcgen [typePredicate]
  all_goals simp_all

@[spec]
theorem assertion_obeys (lineEnds : Bool) : (r.assertion lineEnds).Obeys law := by
  mvcgen [assertion]
  all_goals simp_all

@[spec]
theorem returnedType_obeys (lineEnds : Bool) : (r.returnedType lineEnds).Obeys law := by
  mvcgen [returnedType]
  all_goals simp_all

@[spec]
theorem returnType_obeys (lineEnds : Bool) : (r.returnType lineEnds).Obeys law := by
  mvcgen [returnType]
  all_goals simp_all

@[spec]
theorem signature_obeys : r.signature.Obeys law := by
  mvcgen [signature]
  all_goals simp_all

/-! ## Members of object types -/

@[spec]
theorem indexSignature_obeys : r.indexSignature.Obeys law := by
  mvcgen [indexSignature]
  all_goals simp_all

@[spec]
theorem typeMember_obeys : r.typeMember.Obeys law := by
  mvcgen [typeMember]
  all_goals simp_all

@[spec]
theorem objectType_obeys : r.objectType.Obeys law := by
  mvcgen [objectType]
  all_goals simp_all

/-! ## Types -/

@[spec]
theorem tupleMember_obeys : r.tupleMember.Obeys law := by
  mvcgen [tupleMember]
  all_goals simp_all

@[spec]
theorem templateType_obeys : r.templateType.Obeys law := by
  mvcgen [templateType]
  all_goals simp_all

@[spec]
theorem typeQuery_obeys (lineEnds : Bool) : (r.typeQuery lineEnds).Obeys law := by
  mvcgen [typeQuery]
  all_goals simp_all

@[spec]
theorem parenthesizedType_obeys (lineEnds : Bool) : (r.parenthesizedType lineEnds).Obeys law := by
  mvcgen [parenthesizedType]
  all_goals simp_all

@[spec]
theorem constructorType_obeys (lineEnds : Bool) : (r.constructorType lineEnds).Obeys law := by
  mvcgen [constructorType]
  all_goals simp_all

@[spec]
theorem wordType_obeys (lineEnds : Bool) : (r.wordType lineEnds).Obeys law := by
  mvcgen [wordType]
  all_goals simp_all

@[spec]
theorem typeAtom_obeys (lineEnds : Bool) : (r.typeAtom lineEnds).Obeys law := by
  mvcgen [typeAtom]
  all_goals simp_all

@[spec]
theorem typeUnit_obeys (lineEnds : Bool) : (r.typeUnit lineEnds).Obeys law := by
  mvcgen [typeUnit]
  all_goals simp_all

@[spec]
theorem typeRule_obeys (lineEnds : Bool) : (r.typeRule lineEnds).Obeys law := by
  mvcgen [typeRule]
  all_goals simp_all

/-! ## Names and attributes -/

@[spec]
theorem braced_obeys : r.braced.Obeys law := by
  mvcgen [braced]
  all_goals simp_all

@[spec]
theorem attributeValue_obeys : r.attributeValue.Obeys law := by
  mvcgen [attributeValue]
  all_goals simp_all

@[spec]
theorem attributeRule_obeys : r.attributeRule.Obeys law := by
  mvcgen [attributeRule]
  all_goals simp_all

/-! ## Elements -/

@[spec]
theorem child_obeys (acc : List Node) (hacc : Keeps law acc) : (r.child acc).Obeys law := by
  mvcgen [child]
  all_goals simp_all

@[spec]
theorem elementRule_obeys : r.elementRule.Obeys law := by
  mvcgen [elementRule]
  all_goals simp_all

/-! ## Functions -/

@[spec]
theorem functionParts_obeys (operatorMayFollow : Bool) :
    (r.functionParts operatorMayFollow).Obeys law := by
  mvcgen [functionParts]
  all_goals simp_all +zetaDelta

/-! ## Members of classes -/

@[spec]
theorem classMember_obeys : r.classMember.Obeys law := by
  mvcgen [classMember]
  all_goals simp_all

@[spec]
theorem staticBlock_obeys : r.staticBlock.Obeys law := by
  mvcgen [staticBlock]
  all_goals simp_all

@[spec]
theorem classBody_obeys : r.classBody.Obeys law := by
  mvcgen [classBody]
  all_goals simp_all

/-! ## Classes -/

@[spec]
theorem heritage_obeys : r.heritage.Obeys law := by
  mvcgen [heritage]
  all_goals simp_all

@[spec]
theorem classParts_obeys : r.classParts.Obeys law := by
  mvcgen [classParts]
  all_goals simp_all

end Rules

end WebAudit.Script
