import TwoLevel.Proofs.Verilog.Testbench

/-!
# The names that modules and testbenches declare

A module declares its inputs and its output. A testbench declares them as well, and next to them its
count of errors and its instance of the module. The labels of a table are distinct and none of them
is the name of the output, so no module declares a name twice. A testbench does so exactly if a
label is the name of its count or of its instance: these two are not among the names that no label
may have.

The names are read from the text, line by line, by a reader that knows how declarations begin and
nothing about modules and testbenches.
-/
namespace TwoLevel

open TwoLevel.Text

namespace Verilog

/-! ### A reader of declarations -/

/-- The name that a field begins with. -/
def nameOf (field : List Char) : String := String.ofList (field.takeWhile Label.isPart)

/-- The names in a list of names, up to an initial value. -/
def listedNames (fields : List (List Char)) : List String :=
  (fields.takeWhile (· ≠ ['='])).map nameOf

/-- An instance is declared by the name of a module and its own name, with its connections in
parentheses. -/
def instanceNames : List (List Char) → List String
  | module :: name :: connections :: _ =>
    if Label.isIdentifier (String.ofList module) && Label.isIdentifier (String.ofList name)
        && connections.head? == some '(' then [String.ofList name]
    else []
  | _ => []

/-- The words before the kind of a port. -/
def directions : List (List Char) := ["input".toList, "output".toList]

/-- The words before a list of names. -/
def kinds : List (List Char) := ["wire".toList, "reg".toList, "integer".toList]

/-- The names that a line declares, whose fields are given. -/
def declaredNames : List (List Char) → List String
  | [] => []
  | first :: rest =>
    if first ∈ directions then declaredNames rest
    else if first ∈ kinds then listedNames rest
    else if first = "module".toList then []
    else instanceNames (first :: rest)

def namesOnLine (line : List Char) : List String := declaredNames (fields line)

/-- The names that a text declares, in order. -/
def declarations (text : String) : List String := (text.toList.splitOn '\n').flatMap namesOnLine

/-! ### What single lines declare -/

section

/-! A name with characters behind it that end it and are no blanks. -/

variable {label : String} (identifier : Label.isIdentifier label = true) {rest : List Char}

include identifier

theorem listedNames_cons (ends : rest.head?.all (!Label.isPart ·) = true)
    (fields : List (List Char)) :
    listedNames ((label.toList ++ rest) :: fields) = label :: listedNames fields := by
  obtain ⟨first, others, spelled, start, letters⟩ := (Label.isIdentifier_iff label).mp identifier
  -- No name begins with the sign that stands before an initial value.
  have value : label.toList ++ rest ≠ ['='] := by
    rw [spelled]
    intro same
    cases (List.cons.inj same).1
    exact absurd ((Label.isStart_iff '=').mpr start) (by decide)
  have parts : ∀ c ∈ label.toList, Label.isPart c = true := by
    simp only [spelled, List.forall_mem_cons, Label.isPart_iff]
    exact ⟨.inl start, letters⟩
  have stops : rest.takeWhile Label.isPart = [] := by
    cases rest with
    | nil => rfl
    | cons c more => exact List.takeWhile_cons_of_neg (by simpa using ends)
  rw [listedNames, List.takeWhile_cons_of_pos (by simpa using value), List.map_cons, nameOf,
    List.takeWhile_append_of_pos parts, stops, List.append_nil, String.ofList_toList, listedNames]

theorem fields_name_append (solid : Solid rest) :
    fields (label.toList ++ rest) = [label.toList ++ rest] := by
  obtain ⟨solidName, nonempty⟩ := solid_of_isIdentifier identifier
  refine Solid.fields (List.forall_mem_append.mpr ⟨solidName, solid⟩) ?_
  exact List.append_ne_nil_of_left_ne_nil nonempty rest

/-- A line that declares one name. -/
theorem namesOnLine_declaration {front : List Char}
    (opens : ∀ words, declaredNames (fields front ++ words) = listedNames words)
    (solid : Solid rest) (ends : rest.head?.all (!Label.isPart ·) = true) :
    namesOnLine (front ++ ' ' :: (label.toList ++ rest)) = [label] := by
  rw [namesOnLine, fields_append_cons, opens, fields_name_append identifier solid,
    listedNames_cons identifier ends]
  rfl

end

theorem listedNames_fields_intercalate {labels : List String} (nonempty : labels ≠ [])
    (identifiers : ∀ label ∈ labels, Label.isIdentifier label = true) :
    listedNames (fields (String.intercalate ", " labels ++ ";").toList) = labels := by
  induction labels with
  | nil => exact absurd rfl nonempty
  | cons label rest ih =>
    obtain ⟨identifier, later⟩ := List.forall_mem_cons.mp identifiers
    cases rest with
    | nil =>
      have whole :
          (String.intercalate ", " [label] ++ ";").toList = label.toList ++ [';'] := by simp
      rw [whole, fields_name_append identifier (by decide), listedNames_cons identifier (by decide)]
      rfl
    | cons next more =>
      -- A blank stands behind each comma, so the first name is a field with its comma, and the
      -- others follow.
      have split : (String.intercalate ", " (label :: next :: more) ++ ";").toList
          = (label.toList ++ [','])
            ++ ' ' :: (String.intercalate ", " (next :: more) ++ ";").toList := by
        simp [String.intercalate_cons_cons]
      rw [split, fields_append_cons, fields_name_append identifier (by decide),
        List.singleton_append, listedNames_cons identifier (by decide),
        ih (List.cons_ne_nil next more) later]

theorem instanceNames_eq_nil {first : List Char}
    (other : Label.isIdentifier (String.ofList first) = false) (words : List (List Char)) :
    instanceNames (first :: words) = [] := by
  unfold instanceNames
  split
  next module name connections more same =>
    cases same
    rw [other, Bool.false_and, Bool.false_and, if_neg Bool.false_ne_true]
  next => rfl

theorem instanceNames_cons_eq_nil {second : List Char}
    (other : Label.isIdentifier (String.ofList second) = false)
    (first : List Char) (words : List (List Char)) :
    instanceNames (first :: second :: words) = [] := by
  unfold instanceNames
  split
  next module name connections more same =>
    cases same
    rw [other, Bool.and_false, Bool.false_and, if_neg Bool.false_ne_true]
  next => rfl

theorem isIdentifier_cons_of_not_isStart {c : Char} (other : Label.isStart c = false)
    (rest : List Char) : Label.isIdentifier (String.ofList (c :: rest)) = false := by
  rw [Label.isIdentifier, String.toList_ofList]
  exact Bool.and_eq_false_iff.mpr (.inl other)

theorem declaredNames_kind {kind : List Char} (listed : kind ∈ kinds) (words : List (List Char)) :
    declaredNames (kind :: words) = listedNames words := by
  have other : kind ∉ directions := by
    revert kind
    decide
  rw [declaredNames, if_neg other, if_pos listed]

theorem declaredNames_port {direction kind : List Char} (directed : direction ∈ directions)
    (listed : kind ∈ kinds) (words : List (List Char)) :
    declaredNames (direction :: kind :: words) = listedNames words := by
  rw [declaredNames, if_pos directed, declaredNames_kind listed]

theorem namesOnLine_module (name rest : String) :
    namesOnLine ("module " ++ name ++ rest).toList = [] := by
  have split : ("module " ++ name ++ rest).toList
      = "module".toList ++ ' ' :: (name ++ rest).toList := by simp
  rw [namesOnLine, split, fields_append_cons]
  show declaredNames ("module".toList :: fields (name ++ rest).toList) = []
  rw [declaredNames, if_neg (by decide), if_neg (by decide), if_pos rfl]

theorem namesOnLine_reg {labels : List String} (nonempty : labels ≠ [])
    (identifiers : ∀ label ∈ labels, Label.isIdentifier label = true) :
    namesOnLine ("    reg " ++ String.intercalate ", " labels ++ ";").toList = labels := by
  have split : ("    reg " ++ String.intercalate ", " labels ++ ";").toList
      = "    reg".toList ++ ' ' :: (String.intercalate ", " labels ++ ";").toList := by simp
  rw [namesOnLine, split, fields_append_cons]
  show declaredNames ("reg".toList :: fields _) = labels
  rw [declaredNames_kind (by decide), listedNames_fields_intercalate nonempty identifiers]

section

variable {name : String} (identifier : Label.isIdentifier name = true)

include identifier

theorem namesOnLine_wire : namesOnLine ("    wire " ++ name ++ ";").toList = [name] := by
  have split : ("    wire " ++ name ++ ";").toList
      = "    wire".toList ++ ' ' :: (name.toList ++ [';']) := by simp
  rw [split]
  exact namesOnLine_declaration identifier (declaredNames_kind (by decide)) (by decide) (by decide)

theorem namesOnLine_input : namesOnLine ("    input wire " ++ name ++ ",").toList = [name] := by
  have split : ("    input wire " ++ name ++ ",").toList
      = "    input wire".toList ++ ' ' :: (name.toList ++ [',']) := by simp
  rw [split]
  exact namesOnLine_declaration identifier (declaredNames_port (by decide) (by decide)) (by decide)
    (by decide)

theorem namesOnLine_output : namesOnLine ("    output wire " ++ name).toList = [name] := by
  have split : ("    output wire " ++ name).toList
      = "    output wire".toList ++ ' ' :: (name.toList ++ []) := by simp
  rw [split]
  exact namesOnLine_declaration identifier (declaredNames_port (by decide) (by decide))
    (by decide) rfl

theorem namesOnLine_assign (value : String) :
    namesOnLine ("    assign " ++ name ++ " = " ++ value ++ ";").toList = [] := by
  obtain ⟨solid, nonempty⟩ := solid_of_isIdentifier identifier
  have split : ("    assign " ++ name ++ " = " ++ value ++ ";").toList
      = "    assign".toList
        ++ ' ' :: (name.toList ++ ' ' :: ("=".toList ++ ' ' :: (value ++ ";").toList)) := by simp
  rw [namesOnLine, split, fields_append_cons, fields_append_cons, fields_append_cons,
    solid.fields nonempty]
  show declaredNames ("assign".toList :: name.toList :: ['='] :: fields (value ++ ";").toList) = []
  rw [declaredNames, if_neg (by decide), if_neg (by decide), if_neg (by decide)]
  simp [instanceNames]

end

/-- A condition stands where an instance has its name. -/
theorem namesOnLine_if (condition : String) :
    namesOnLine ("        if (" ++ condition).toList = [] := by
  have split : ("        if (" ++ condition).toList
      = "        if".toList ++ ' ' :: '(' :: condition.toList := by simp
  obtain ⟨word, words, first⟩ := exists_fields_cons (c := '(') (by decide) condition.toList
  rw [namesOnLine, split, fields_append_cons, first]
  show declaredNames ("if".toList :: ('(' :: word) :: words) = []
  rw [declaredNames, if_neg (by decide), if_neg (by decide), if_neg (by decide)]
  exact instanceNames_cons_eq_nil (isIdentifier_cons_of_not_isStart (by decide) word) _ words

/-- Inputs in braces are assigned and not declared. -/
theorem namesOnLine_brace (rest : String) : namesOnLine ("        \x7b" ++ rest).toList = [] := by
  have split :
      ("        \x7b" ++ rest).toList = "       ".toList ++ ' ' :: '\x7b' :: rest.toList := by simp
  obtain ⟨word, words, first⟩ := exists_fields_cons (c := '\x7b') (by decide) rest.toList
  rw [namesOnLine, split, fields_append_cons, first]
  show declaredNames (('\x7b' :: word) :: words) = []
  rw [declaredNames, if_neg (by simp [directions]), if_neg (by simp [kinds]), if_neg (by simp)]
  exact instanceNames_eq_nil (isIdentifier_cons_of_not_isStart (by decide) word) words

/-- The name of a module that no declaration begins with. -/
structure IsModuleName (name : String) : Prop where
  identifier : Label.isIdentifier name = true
  no_keyword : name.toList ∉ "module".toList :: (directions ++ kinds)

theorem namesOnLine_instance {module : String} (named : IsModuleName module)
    (connections : String) :
    namesOnLine ("    " ++ module ++ " dut (" ++ connections ++ ");").toList = ["dut"] := by
  have split : ("    " ++ module ++ " dut (" ++ connections ++ ");").toList
      = "   ".toList
        ++ ' ' :: (module.toList
          ++ ' ' :: ("dut".toList ++ ' ' :: '(' :: (connections ++ ");").toList)) := by simp
  obtain ⟨solid, nonempty⟩ := solid_of_isIdentifier named.identifier
  obtain ⟨word, words, first⟩ :=
    exists_fields_cons (c := '(') (by decide) (connections ++ ");").toList
  rw [namesOnLine, split, fields_append_cons, fields_append_cons, fields_append_cons,
    solid.fields nonempty, first]
  show declaredNames (module.toList :: "dut".toList :: ('(' :: word) :: words) = ["dut"]
  obtain ⟨noModule, noOther⟩ := not_or.mp (mt List.mem_cons.mpr named.no_keyword)
  obtain ⟨noDirection, noKind⟩ := not_or.mp (mt List.mem_append.mpr noOther)
  have isName : Label.isIdentifier "dut" = true := by decide
  rw [declaredNames, if_neg noDirection, if_neg noKind, if_neg noModule]
  simp [instanceNames, named.identifier, isName]

theorem declarations_of_lines {text : String} {lines : List String}
    (split : text.toList.splitOn '\n' = lines.map String.toList ++ [[]]) :
    declarations text = lines.flatMap fun line => namesOnLine line.toList := by
  rw [declarations, split, List.flatMap_append, List.flatMap_map]
  exact List.append_nil _

end Verilog

/-! ### Modules -/

theorem Cover.onOneLine_sumOfProducts (cover : List Implicant) {labels : List String}
    (plain : ∀ label ∈ labels, OnOneLine label) :
    OnOneLine (sumOfProducts cover labels .verilog) := by
  have name (position : Nat) : OnOneLine (Label.atPosition labels position) := by
    rw [Label.atPosition, List.getD_eq_getElem?_getD]
    cases found : labels[position]? with
    | none => decide
    | some label => exact plain label (List.mem_of_getElem? found)
  have product (p : Implicant) : OnOneLine (p.productText labels .verilog) := by
    rw [Implicant.productText]
    split
    · decide
    · refine onOneLine_intercalate (by decide) (List.forall_mem_map.mpr fun literal _ => ?_)
      obtain ⟨position, positive⟩ := literal
      cases positive with
      | true => exact name position
      | false => exact (onOneLine_append _ _).mpr ⟨by decide, name position⟩
  rw [sumOfProducts]
  split
  · decide
  · refine onOneLine_intercalate (by decide) (List.forall_mem_map.mpr fun p _ => ?_)
    rw [summandText]
    split
    · simp only [onOneLine_append, product]
      decide
    · exact product p

namespace VerilogModule

variable (module : VerilogModule)

def inputLine (input : String) : String := "    input wire " ++ input ++ ","

def lines : List String :=
  ["module " ++ module.name ++ " ("] ++ module.inputs.map inputLine
    ++ ["    output wire " ++ module.output, ");", "",
      "    assign " ++ module.output ++ " = " ++ module.expression ++ ";", "", "endmodule"]

theorem toList_inputLine (input : String) :
    (inputLine input).toList = "    input wire ".toList ++ input.toList ++ [','] := by
  show ("    input wire " ++ input ++ ",").toList = _
  rw [String.toList_append, String.toList_append]
  rfl

theorem toList_toText : module.toText.toList = terminated (module.lines.map String.toList) := by
  have inputs :
      (String.join (module.inputs.map fun input => "    input wire " ++ input ++ ",\n")).toList
        = terminated ((module.inputs.map inputLine).map String.toList) := by
    rw [String.toList_join, List.flatMap_map]
    simp [terminated, List.flatMap_map, toList_inputLine]
  rw [lines, List.map_append, List.map_append, terminated_append, terminated_append, ← inputs]
  unfold toText
  simp [terminated]

/-- A module whose ports are spelled as names. -/
structure Spelled : Prop where
  name : OnOneLine module.name
  inputs : ∀ input ∈ module.inputs, Label.isIdentifier input = true
  output : Label.isIdentifier module.output = true
  expression : OnOneLine module.expression

variable {module} (spelled : module.Spelled)

include spelled

theorem splitOn_toText :
    module.toText.toList.splitOn '\n' = module.lines.map String.toList ++ [[]] := by
  have onOneLine {name : String} (identifier : Label.isIdentifier name = true) : OnOneLine name :=
    (solid_of_isIdentifier identifier).1.onOneLine
  have inputs : ∀ line ∈ module.inputs.map inputLine, OnOneLine line := by
    refine List.forall_mem_map.mpr fun input member => ?_
    show OnOneLine ("    input wire " ++ input ++ ",")
    simp only [onOneLine_append, onOneLine (spelled.inputs input member)]
    decide
  have each : ∀ line ∈ module.lines, OnOneLine line := by
    refine List.forall_mem_append.mpr ⟨List.forall_mem_append.mpr ⟨?_, inputs⟩, ?_⟩
    · simp only [List.forall_mem_singleton, onOneLine_append, spelled.name]
      decide
    · simp only [List.forall_mem_cons, onOneLine_append, onOneLine spelled.output,
        spelled.expression]
      decide
  rw [toList_toText, splitOn_terminated (List.forall_mem_map.mpr each)]

/-- A module declares its inputs and its output, and no other name. -/
theorem declarations_toText :
    Verilog.declarations module.toText = module.inputs ++ [module.output] := by
  have inputs : (module.inputs.map inputLine).flatMap (fun line => Verilog.namesOnLine line.toList)
      = module.inputs := by
    have each : ∀ input ∈ module.inputs, Verilog.namesOnLine (inputLine input).toList = [input] :=
      fun input member => Verilog.namesOnLine_input (spelled.inputs input member)
    rw [List.flatMap_map, List.flatMap_congr each, List.flatMap_singleton']
  -- Of the lines around the inputs only the one of the output declares a name.
  rw [Verilog.declarations_of_lines (splitOn_toText spelled), lines, List.flatMap_append,
    List.flatMap_append, inputs]
  simp only [List.flatMap_cons, List.flatMap_nil, Verilog.namesOnLine_module,
    Verilog.namesOnLine_output spelled.output, Verilog.namesOnLine_assign spelled.output]
  rfl

end VerilogModule

/-! ### Testbenches -/

namespace Testbench

variable (bench : Testbench)

/-- A testbench whose signals are spelled as names. -/
structure Spelled : Prop where
  moduleName : Verilog.IsModuleName bench.moduleName
  nonempty : bench.inputs ≠ []
  inputs : ∀ input ∈ bench.inputs, Label.isIdentifier input = true
  output : Label.isIdentifier bench.output = true

variable {bench} (spelled : bench.Spelled)

theorem namesOnLine_stepLines (step : TestStep) :
    (bench.stepLines step).flatMap (fun line => Verilog.namesOnLine line.toList) = [] := by
  unfold stepLines stimulusLine comparisonLine
  simp only [String.append_assoc, List.flatMap_cons, List.flatMap_nil, Verilog.namesOnLine_brace,
    Verilog.namesOnLine_if, List.append_nil]

theorem namesOnLine_closingLines :
    bench.closingLines.flatMap (fun line => Verilog.namesOnLine line.toList) = [] := by
  have verdict : verdictLine bench.steps.length
      = "        if (" ++ ("errors == 0) $display(\"PASS: all " ++ toString bench.steps.length
        ++ " rows\");") := by
    unfold verdictLine
    exact String.toList_inj.mp (by simp)
  rw [closingLines, verdict, List.flatMap_cons, Verilog.namesOnLine_if]
  rfl

include spelled

theorem Spelled.plain : bench.Plain where
  moduleName := (solid_of_isIdentifier spelled.moduleName.identifier).1.onOneLine
  inputs input member := (solid_of_isIdentifier (spelled.inputs input member)).1.onOneLine
  output := (solid_of_isIdentifier spelled.output).1.onOneLine

theorem namesOnLine_openingLines :
    bench.openingLines.flatMap (fun line => Verilog.namesOnLine line.toList)
    = bench.inputs ++ [bench.output, "errors", "dut"] := by
  unfold openingLines inputList instanceLine
  simp only [List.flatMap_cons, List.flatMap_nil, Verilog.namesOnLine_module,
    Verilog.namesOnLine_reg spelled.nonempty spelled.inputs,
    Verilog.namesOnLine_wire spelled.output, Verilog.namesOnLine_instance spelled.moduleName]
  rfl

/-- A testbench declares the ports of its module, its count of errors and its instance of the
module. -/
theorem declarations_toText :
    Verilog.declarations bench.toText = bench.inputs ++ [bench.output, "errors", "dut"] := by
  have steps :
      (bench.steps.flatMap bench.stepLines).flatMap (fun line => Verilog.namesOnLine line.toList)
        = [] := by
    rw [List.flatMap_assoc]
    exact List.flatMap_eq_nil_iff.mpr fun step _ => namesOnLine_stepLines step
  rw [Verilog.declarations_of_lines (splitOn_toText spelled.plain), lines, List.flatMap_append,
    List.flatMap_append, namesOnLine_openingLines spelled, steps, namesOnLine_closingLines,
    List.append_nil, List.append_nil]

end Testbench

theorem VerilogModule.isModuleName_standardName (arity : Nat) :
    Verilog.IsModuleName (standardName arity) where
  identifier := by
    have digits : ∀ c ∈ (toString arity).toList, Label.isPart c = true := by
      intro c member
      rw [Nat.toString_eq_ofList_toDigits, String.toList_ofList] at member
      have digit := Nat.isDigit_of_mem_toDigits (by decide) (by decide) member
      exact (Label.isPart_iff c).mpr (.inr ((Label.isDigit_iff c).mp digit))
    have spelled : (standardName arity).toList
        = 'k' :: ("map_".toList ++ (toString arity).toList ++ ['v']) := by
      simp [standardName]
    rw [Label.isIdentifier, spelled]
    simp only [List.all_append, Bool.and_eq_true]
    exact ⟨by decide, ⟨by decide, List.all_eq_true.mpr digits⟩, by decide⟩
  no_keyword := by
    simp [standardName, Verilog.directions, Verilog.kinds]

theorem Label.Fit.nodup_append_iff {arity : Nat} {labels added : List String}
    (fit : Fit arity labels) (distinct : added.Nodup) :
    (labels ++ added).Nodup ↔ ∀ name ∈ added, name ∉ labels := by
  rw [List.nodup_append', List.disjoint_right]
  exact ⟨fun ⟨_, _, apart⟩ => apart, fun apart => ⟨fit.nodup, distinct, apart⟩⟩

namespace Minimization

variable {m : Minimization} {t : TruthTable} {settings : Settings} (derives : m.Derives t settings)

include derives

theorem Derives.spelled_module : (VerilogModule.ofMinimization m).Spelled where
  name :=
    (solid_of_isIdentifier
      (VerilogModule.isModuleName_standardName m.table.arity).identifier).1.onOneLine
  inputs := by
    show ∀ label ∈ m.labels, _
    rw [derives.labels_eq]
    exact t.labels_fit.identifier
  output := by
    show Label.isIdentifier Label.output = true
    decide
  expression := by
    refine Cover.onOneLine_sumOfProducts m.products fun label member => ?_
    rw [derives.labels_eq] at member
    exact (solid_of_isIdentifier (t.labels_fit.identifier label member)).1.onOneLine

theorem Derives.spelled_testbench : (Testbench.ofMinimization m).Spelled where
  moduleName := VerilogModule.isModuleName_standardName m.table.arity
  nonempty := by
    show m.labels ≠ []
    rw [derives.labels_eq, ← List.length_pos_iff, t.labels_fit.length_eq]
    exact t.one_le_arity
  inputs := derives.spelled_module.inputs
  output := derives.spelled_module.output

omit derives in
/-- Under all settings, the module of a table declares the labels and `out`, and these are distinct.
Its testbench declares `errors` and `dut` as well, and the names are distinct exactly if no label is
one of these two. -/
theorem ofTable_declarations (t : TruthTable) (settings : Settings) :
    ∃ m, ofTable t settings = .ok m
      ∧ (VerilogModule.ofMinimization m).inputs ++ [(VerilogModule.ofMinimization m).output]
        = t.labels ++ ["out"]
      ∧ Verilog.declarations (VerilogModule.ofMinimization m).toText = t.labels ++ ["out"]
      ∧ (t.labels ++ ["out"]).Nodup
      ∧ Verilog.declarations (Testbench.ofMinimization m).toText
        = t.labels ++ ["out", "errors", "dut"]
      ∧ ((t.labels ++ ["out", "errors", "dut"]).Nodup
        ↔ "errors" ∉ t.labels ∧ "dut" ∉ t.labels) := by
  obtain ⟨m, found, derives⟩ := exists_ofTable t settings
  have ports : (VerilogModule.ofMinimization m).inputs ++ [(VerilogModule.ofMinimization m).output]
      = t.labels ++ ["out"] := congrArg (· ++ ["out"]) derives.labels_eq
  have free : "out" ∉ t.labels := fun member => t.labels_fit.not_reserved "out" member (by decide)
  refine ⟨m, found, ports, ?module, ?ports, ?testbench, ?all⟩
  case module => rw [VerilogModule.declarations_toText derives.spelled_module, ports]
  case ports =>
    rw [t.labels_fit.nodup_append_iff (by decide), List.forall_mem_singleton]
    exact free
  case testbench =>
    rw [Testbench.declarations_toText derives.spelled_testbench]
    exact congrArg (· ++ ["out", "errors", "dut"]) derives.labels_eq
  case all =>
    rw [t.labels_fit.nodup_append_iff (by decide)]
    simp [free]

omit derives in
/-- A table that is read although its label is the name of the count of errors. Its testbench
declares this name twice. -/
theorem declarations_of_label_errors :
    ∃ t m, TableText.read ".i 1\n.ilb errors\n1 1" = .ok t ∧ ofTable t .standard = .ok m
      ∧ Verilog.declarations (Testbench.ofMinimization m).toText
        = ["errors", "out", "errors", "dut"]
      ∧ ¬ (Verilog.declarations (Testbench.ofMinimization m).toText).Nodup := by
  obtain ⟨t, made, named⟩ :
      ∃ t, TableText.read ".i 1\n.ilb errors\n1 1" = .ok t ∧ t.labels = ["errors"] :=
    ⟨_, rfl, by decide⟩
  obtain ⟨m, found, derives⟩ := exists_ofTable t .standard
  have names : Verilog.declarations (Testbench.ofMinimization m).toText
      = ["errors", "out", "errors", "dut"] := by
    rw [Testbench.declarations_toText derives.spelled_testbench]
    exact congrArg (· ++ ["out", "errors", "dut"]) (derives.labels_eq.trans named)
  exact ⟨t, m, made, found, names, by rw [names]; decide⟩

end Minimization

end TwoLevel
