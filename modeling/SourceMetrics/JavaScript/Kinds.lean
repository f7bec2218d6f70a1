/-
# The kinds of node of JavaScript

Which kinds are comments, start a function or a class, count as a
statement or as a decision is configuration: it is written down here and
never inferred.
-/
namespace SourceMetrics.JavaScript

/-- Leaves that are comments. -/
def commentTypes : List String := [
  "comment", "html_comment"]

/-- Nodes that start a function. -/
def functionTypes : List String := [
  "function_declaration", "function_expression", "generator_function_declaration",
  "generator_function", "arrow_function", "method_definition"]

/-- Nodes that start a class. -/
def classTypes : List String := [
  "class_declaration", "class"]

/-- Statements. -/
def statementTypes : List String := [
  "variable_declaration", "lexical_declaration", "empty_statement", "labeled_statement",
  "expression_statement", "if_statement", "while_statement", "do_statement", "for_statement",
  "for_in_statement", "continue_statement", "break_statement", "return_statement",
  "with_statement", "switch_statement", "throw_statement", "try_statement",
  "debugger_statement"]

/-- Decisions, the entry of a function among them. -/
def complexityTypes : List String := [
  "function_declaration", "function_expression", "generator_function_declaration",
  "generator_function", "arrow_function", "method_definition", "if_statement",
  "while_statement", "do_statement", "for_statement", "for_in_statement", "switch_statement",
  "switch_case", "switch_default", "catch_clause", "return_statement", "throw_statement", "?",
  "&&", "||"]

/-- All kinds of node the parser has, named and literal. -/
def knownTypes : List String := [
  "!", "!=", "!==", "\"", "$\x7b", "%", "%=", "&", "&&", "&&=", "&=", "'", "(", ")", "*", "**",
  "**=", "*=", "+", "++", "+=", ",", "-", "--", "-=", ".", "...", "/", "/=", "/>", ":", ";",
  "<", "</", "<<", "<<=", "<=", "=", "==", "===", "=>", ">", ">=", ">>", ">>=", ">>>", ">>>=",
  "?", "?.", "??", "??=", "@", "[", "]", "^", "^=", "_augmented_assignment_lhs",
  "_automatic_semicolon", "_call_signature", "_destructuring_pattern", "_expressions",
  "_for_header", "_formal_parameter", "_from_clause",
  "_function_signature_automatic_semicolon", "_identifier", "_initializer", "_jsx_attribute",
  "_jsx_attribute_name", "_jsx_attribute_value", "_jsx_child", "_jsx_element",
  "_jsx_element_name", "_jsx_identifier", "_jsx_string", "_jsx_string_repeat1",
  "_jsx_string_repeat2", "_lhs_expression", "_module_export_name", "_property_name",
  "_reserved_identifier", "_semicolon", "_template_chars", "_ternary_qmark", "`", "arguments",
  "array", "array_pattern", "array_pattern_repeat1", "array_repeat1", "arrow_function", "as",
  "assignment_expression", "assignment_pattern", "async", "augmented_assignment_expression",
  "await", "await_expression", "binary_expression", "break", "break_statement",
  "call_expression", "case", "catch", "catch_clause", "class", "class_body",
  "class_body_repeat1", "class_declaration", "class_heritage", "class_static_block", "comment",
  "computed_property_name", "const", "continue", "continue_statement", "debugger",
  "debugger_statement", "declaration", "decorator", "default", "delete", "do", "do_statement",
  "else", "else_clause", "empty_statement", "end", "escape_sequence", "export",
  "export_clause", "export_clause_repeat1", "export_specifier", "export_statement",
  "export_statement_repeat1", "expression", "expression_statement", "extends", "false",
  "field_definition", "finally", "finally_clause", "for", "for_in_statement", "for_statement",
  "formal_parameters", "formal_parameters_repeat1", "from", "function", "function_declaration",
  "function_expression", "generator_function", "generator_function_declaration", "get",
  "hash_bang_line", "html_character_reference", "html_comment", "identifier", "if",
  "if_statement", "import", "import_attribute", "import_clause", "import_specifier",
  "import_statement", "in", "instanceof", "jsx_attribute", "jsx_closing_element",
  "jsx_element", "jsx_element_repeat1", "jsx_expression", "jsx_namespace_name",
  "jsx_opening_element", "jsx_opening_element_repeat1", "jsx_self_closing_element", "jsx_text",
  "labeled_statement", "let", "lexical_declaration", "member_expression", "meta",
  "meta_property", "method_definition", "named_imports", "named_imports_repeat1",
  "namespace_export", "namespace_import", "nested_identifier", "new", "new_expression", "null",
  "number", "object", "object_assignment_pattern", "object_pattern", "object_pattern_repeat1",
  "object_repeat1", "of", "optional_chain", "pair", "pair_pattern", "parenthesized_expression",
  "pattern", "primary_expression", "private_property_identifier", "program", "program_repeat1",
  "property_identifier", "regex", "regex_flags", "regex_pattern", "rest_pattern", "return",
  "return_statement", "sequence_expression", "sequence_expression_repeat1", "set",
  "shorthand_property_identifier", "shorthand_property_identifier_pattern", "spread_element",
  "statement", "statement_block", "statement_identifier", "static", "static get", "string",
  "string_fragment", "string_repeat1", "string_repeat2", "subscript_expression", "super",
  "switch", "switch_body", "switch_body_repeat1", "switch_case", "switch_default",
  "switch_statement", "target", "template_string", "template_string_repeat1",
  "template_substitution", "ternary_expression", "this", "throw", "throw_statement", "true",
  "try", "try_statement", "typeof", "unary_expression", "undefined",
  "unescaped_double_jsx_string_fragment", "unescaped_double_string_fragment",
  "unescaped_single_jsx_string_fragment", "unescaped_single_string_fragment",
  "update_expression", "var", "variable_declaration", "variable_declaration_repeat1",
  "variable_declarator", "void", "while", "while_statement", "with", "with_statement", "yield",
  "yield_expression", "\x7b", "|", "|=", "||", "||=", "\x7d", "~"]

end SourceMetrics.JavaScript
