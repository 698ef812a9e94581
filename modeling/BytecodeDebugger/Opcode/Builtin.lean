import BytecodeDebugger.Opcode.Table
import BytecodeDebugger.Text.Fold

/-!
# Built-in opcode tables

Two generations of the runtime. The classic one has instructions of one or three bytes, the other
one instructions of two bytes.
-/

namespace BytecodeDebugger

/-- The comparison operators of both generations. -/
def compareOperators : List String :=
  ["<", "<=", "==", "!=", ">", ">=", "in", "not in", "is", "is not", "exception match", "BAD"]

/-- The opcodes of the classic generation. -/
def classicOpcodes : List OperandDescriptor :=
  [⟨0, "STOP_CODE", .none⟩, ⟨1, "POP_TOP", .none⟩, ⟨2, "ROT_TWO", .none⟩, ⟨3, "ROT_THREE", .none⟩,
   ⟨4, "DUP_TOP", .none⟩, ⟨5, "ROT_FOUR", .none⟩, ⟨9, "NOP", .none⟩,
   ⟨10, "UNARY_POSITIVE", .none⟩, ⟨11, "UNARY_NEGATIVE", .none⟩, ⟨12, "UNARY_NOT", .none⟩,
   ⟨13, "UNARY_CONVERT", .none⟩, ⟨15, "UNARY_INVERT", .none⟩, ⟨19, "BINARY_POWER", .none⟩,
   ⟨20, "BINARY_MULTIPLY", .none⟩, ⟨21, "BINARY_DIVIDE", .none⟩, ⟨22, "BINARY_MODULO", .none⟩,
   ⟨23, "BINARY_ADD", .none⟩, ⟨24, "BINARY_SUBTRACT", .none⟩, ⟨25, "BINARY_SUBSCR", .none⟩,
   ⟨26, "BINARY_FLOOR_DIVIDE", .none⟩, ⟨27, "BINARY_TRUE_DIVIDE", .none⟩,
   ⟨28, "INPLACE_FLOOR_DIVIDE", .none⟩, ⟨29, "INPLACE_TRUE_DIVIDE", .none⟩,
   ⟨30, "SLICE+0", .none⟩, ⟨31, "SLICE+1", .none⟩, ⟨32, "SLICE+2", .none⟩, ⟨33, "SLICE+3", .none⟩,
   ⟨40, "STORE_SLICE+0", .none⟩, ⟨41, "STORE_SLICE+1", .none⟩, ⟨42, "STORE_SLICE+2", .none⟩,
   ⟨43, "STORE_SLICE+3", .none⟩, ⟨50, "DELETE_SLICE+0", .none⟩, ⟨51, "DELETE_SLICE+1", .none⟩,
   ⟨52, "DELETE_SLICE+2", .none⟩, ⟨53, "DELETE_SLICE+3", .none⟩, ⟨54, "STORE_MAP", .none⟩,
   ⟨55, "INPLACE_ADD", .none⟩, ⟨56, "INPLACE_SUBTRACT", .none⟩, ⟨57, "INPLACE_MULTIPLY", .none⟩,
   ⟨58, "INPLACE_DIVIDE", .none⟩, ⟨59, "INPLACE_MODULO", .none⟩, ⟨60, "STORE_SUBSCR", .none⟩,
   ⟨61, "DELETE_SUBSCR", .none⟩, ⟨62, "BINARY_LSHIFT", .none⟩, ⟨63, "BINARY_RSHIFT", .none⟩,
   ⟨64, "BINARY_AND", .none⟩, ⟨65, "BINARY_XOR", .none⟩, ⟨66, "BINARY_OR", .none⟩,
   ⟨67, "INPLACE_POWER", .none⟩, ⟨68, "GET_ITER", .none⟩, ⟨70, "PRINT_EXPR", .none⟩,
   ⟨71, "PRINT_ITEM", .none⟩, ⟨72, "PRINT_NEWLINE", .none⟩, ⟨73, "PRINT_ITEM_TO", .none⟩,
   ⟨74, "PRINT_NEWLINE_TO", .none⟩, ⟨75, "INPLACE_LSHIFT", .none⟩, ⟨76, "INPLACE_RSHIFT", .none⟩,
   ⟨77, "INPLACE_AND", .none⟩, ⟨78, "INPLACE_XOR", .none⟩, ⟨79, "INPLACE_OR", .none⟩,
   ⟨80, "BREAK_LOOP", .none⟩, ⟨81, "WITH_CLEANUP", .none⟩, ⟨82, "LOAD_LOCALS", .none⟩,
   ⟨83, "RETURN_VALUE", .none⟩, ⟨84, "IMPORT_STAR", .none⟩, ⟨85, "EXEC_STMT", .none⟩,
   ⟨86, "YIELD_VALUE", .none⟩, ⟨87, "POP_BLOCK", .none⟩, ⟨88, "END_FINALLY", .none⟩,
   ⟨89, "BUILD_CLASS", .none⟩, ⟨90, "STORE_NAME", .nameIndex⟩, ⟨91, "DELETE_NAME", .nameIndex⟩,
   ⟨92, "UNPACK_SEQUENCE", .immediate⟩, ⟨93, "FOR_ITER", .jumpRelative⟩,
   ⟨94, "LIST_APPEND", .immediate⟩, ⟨95, "STORE_ATTR", .nameIndex⟩,
   ⟨96, "DELETE_ATTR", .nameIndex⟩, ⟨97, "STORE_GLOBAL", .nameIndex⟩,
   ⟨98, "DELETE_GLOBAL", .nameIndex⟩, ⟨99, "DUP_TOPX", .immediate⟩,
   ⟨100, "LOAD_CONST", .constIndex⟩, ⟨101, "LOAD_NAME", .nameIndex⟩,
   ⟨102, "BUILD_TUPLE", .immediate⟩, ⟨103, "BUILD_LIST", .immediate⟩,
   ⟨104, "BUILD_SET", .immediate⟩, ⟨105, "BUILD_MAP", .immediate⟩, ⟨106, "LOAD_ATTR", .nameIndex⟩,
   ⟨107, "COMPARE_OP", .compareIndex⟩, ⟨108, "IMPORT_NAME", .nameIndex⟩,
   ⟨109, "IMPORT_FROM", .nameIndex⟩, ⟨110, "JUMP_FORWARD", .jumpRelative⟩,
   ⟨111, "JUMP_IF_FALSE_OR_POP", .jumpAbsolute⟩, ⟨112, "JUMP_IF_TRUE_OR_POP", .jumpAbsolute⟩,
   ⟨113, "JUMP_ABSOLUTE", .jumpAbsolute⟩, ⟨114, "POP_JUMP_IF_FALSE", .jumpAbsolute⟩,
   ⟨115, "POP_JUMP_IF_TRUE", .jumpAbsolute⟩, ⟨116, "LOAD_GLOBAL", .nameIndex⟩,
   ⟨119, "CONTINUE_LOOP", .jumpAbsolute⟩, ⟨120, "SETUP_LOOP", .jumpRelative⟩,
   ⟨121, "SETUP_EXCEPT", .jumpRelative⟩, ⟨122, "SETUP_FINALLY", .jumpRelative⟩,
   ⟨124, "LOAD_FAST", .localIndex⟩, ⟨125, "STORE_FAST", .localIndex⟩,
   ⟨126, "DELETE_FAST", .localIndex⟩, ⟨130, "RAISE_VARARGS", .immediate⟩,
   ⟨131, "CALL_FUNCTION", .immediate⟩, ⟨132, "MAKE_FUNCTION", .immediate⟩,
   ⟨133, "BUILD_SLICE", .immediate⟩, ⟨134, "MAKE_CLOSURE", .immediate⟩,
   ⟨135, "LOAD_CLOSURE", .freeIndex⟩, ⟨136, "LOAD_DEREF", .freeIndex⟩,
   ⟨137, "STORE_DEREF", .freeIndex⟩, ⟨140, "CALL_FUNCTION_VAR", .immediate⟩,
   ⟨141, "CALL_FUNCTION_KW", .immediate⟩, ⟨142, "CALL_FUNCTION_VAR_KW", .immediate⟩,
   ⟨143, "SETUP_WITH", .jumpRelative⟩, ⟨145, "EXTENDED_ARG", .immediate⟩,
   ⟨146, "SET_ADD", .immediate⟩, ⟨147, "MAP_ADD", .immediate⟩]

/-- The opcodes of the generation with two-byte instructions. -/
def wordcodeOpcodes : List OperandDescriptor :=
  [⟨1, "POP_TOP", .none⟩, ⟨2, "ROT_TWO", .none⟩, ⟨3, "ROT_THREE", .none⟩, ⟨4, "DUP_TOP", .none⟩,
   ⟨9, "NOP", .none⟩, ⟨10, "UNARY_POSITIVE", .none⟩, ⟨11, "UNARY_NEGATIVE", .none⟩,
   ⟨12, "UNARY_NOT", .none⟩, ⟨15, "UNARY_INVERT", .none⟩, ⟨19, "BINARY_POWER", .none⟩,
   ⟨20, "BINARY_MULTIPLY", .none⟩, ⟨22, "BINARY_MODULO", .none⟩, ⟨23, "BINARY_ADD", .none⟩,
   ⟨24, "BINARY_SUBTRACT", .none⟩, ⟨25, "BINARY_SUBSCR", .none⟩,
   ⟨26, "BINARY_FLOOR_DIVIDE", .none⟩, ⟨27, "BINARY_TRUE_DIVIDE", .none⟩,
   ⟨55, "INPLACE_ADD", .none⟩, ⟨56, "INPLACE_SUBTRACT", .none⟩, ⟨57, "INPLACE_MULTIPLY", .none⟩,
   ⟨60, "STORE_SUBSCR", .none⟩, ⟨61, "DELETE_SUBSCR", .none⟩, ⟨68, "GET_ITER", .none⟩,
   ⟨70, "PRINT_EXPR", .none⟩, ⟨83, "RETURN_VALUE", .none⟩, ⟨84, "IMPORT_STAR", .none⟩,
   ⟨86, "YIELD_VALUE", .none⟩, ⟨87, "POP_BLOCK", .none⟩, ⟨88, "END_FINALLY", .none⟩,
   ⟨89, "POP_EXCEPT", .none⟩, ⟨90, "STORE_NAME", .nameIndex⟩, ⟨91, "DELETE_NAME", .nameIndex⟩,
   ⟨92, "UNPACK_SEQUENCE", .immediate⟩, ⟨93, "FOR_ITER", .jumpRelative⟩,
   ⟨95, "STORE_ATTR", .nameIndex⟩, ⟨96, "DELETE_ATTR", .nameIndex⟩,
   ⟨97, "STORE_GLOBAL", .nameIndex⟩, ⟨98, "DELETE_GLOBAL", .nameIndex⟩,
   ⟨100, "LOAD_CONST", .constIndex⟩, ⟨101, "LOAD_NAME", .nameIndex⟩,
   ⟨102, "BUILD_TUPLE", .immediate⟩, ⟨103, "BUILD_LIST", .immediate⟩,
   ⟨104, "BUILD_SET", .immediate⟩, ⟨105, "BUILD_MAP", .immediate⟩, ⟨106, "LOAD_ATTR", .nameIndex⟩,
   ⟨107, "COMPARE_OP", .compareIndex⟩, ⟨108, "IMPORT_NAME", .nameIndex⟩,
   ⟨109, "IMPORT_FROM", .nameIndex⟩, ⟨110, "JUMP_FORWARD", .jumpRelative⟩,
   ⟨111, "JUMP_IF_FALSE_OR_POP", .jumpAbsolute⟩, ⟨112, "JUMP_IF_TRUE_OR_POP", .jumpAbsolute⟩,
   ⟨113, "JUMP_ABSOLUTE", .jumpAbsolute⟩, ⟨114, "POP_JUMP_IF_FALSE", .jumpAbsolute⟩,
   ⟨115, "POP_JUMP_IF_TRUE", .jumpAbsolute⟩, ⟨116, "LOAD_GLOBAL", .nameIndex⟩,
   ⟨120, "SETUP_LOOP", .jumpRelative⟩, ⟨121, "SETUP_EXCEPT", .jumpRelative⟩,
   ⟨122, "SETUP_FINALLY", .jumpRelative⟩, ⟨124, "LOAD_FAST", .localIndex⟩,
   ⟨125, "STORE_FAST", .localIndex⟩, ⟨126, "DELETE_FAST", .localIndex⟩,
   ⟨130, "RAISE_VARARGS", .immediate⟩, ⟨131, "CALL_FUNCTION", .immediate⟩,
   ⟨132, "MAKE_FUNCTION", .immediate⟩, ⟨133, "BUILD_SLICE", .immediate⟩,
   ⟨135, "LOAD_CLOSURE", .freeIndex⟩, ⟨136, "LOAD_DEREF", .freeIndex⟩,
   ⟨137, "STORE_DEREF", .freeIndex⟩, ⟨141, "CALL_FUNCTION_KW", .immediate⟩,
   ⟨143, "SETUP_WITH", .jumpRelative⟩, ⟨144, "EXTENDED_ARG", .immediate⟩,
   ⟨145, "LIST_APPEND", .immediate⟩, ⟨146, "SET_ADD", .immediate⟩, ⟨147, "MAP_ADD", .immediate⟩]

/-- A generation of the runtime. -/
inductive RuntimeVersion where
  | classic
  | wordcode
  deriving DecidableEq, Repr

namespace RuntimeVersion

/-- The name of a generation. -/
def name : RuntimeVersion → String
  | .classic => "classic"
  | .wordcode => "wordcode"

/-- The generation of a name, in any letter case. -/
def ofString? (text : String) : Option RuntimeVersion :=
  match Text.foldCase text with
  | "classic" => some .classic
  | "wordcode" => some .wordcode
  | _ => none

/-- The generations. -/
def all : List RuntimeVersion := [.classic, .wordcode]

/-- What is said about a name that is no generation. -/
def unknownMessage (text : String) : String := "Unknown runtime version: " ++ text

/-- The opcode table of a generation. -/
def table : RuntimeVersion → OpcodeTable
  | .classic =>
    { version := "classic"
      format := .variable 2
      extendedArg := 145
      compareOps := compareOperators
      opcodes := classicOpcodes
      sorted := by decide +kernel
      width_pos := by decide
      width_le := by decide
      extendedArg_operand := ⟨⟨145, "EXTENDED_ARG", .immediate⟩, by decide +kernel, by decide⟩ }
  | .wordcode =>
    { version := "wordcode"
      format := .wordcode
      extendedArg := 144
      compareOps := compareOperators
      opcodes := wordcodeOpcodes
      sorted := by decide +kernel
      width_pos := by decide
      width_le := by decide
      extendedArg_operand := ⟨⟨144, "EXTENDED_ARG", .immediate⟩, by decide +kernel, by decide⟩ }

end RuntimeVersion

end BytecodeDebugger
