/-!
# Kinds and fields of syntax nodes

The grammars of JavaScript and TypeScript give each node of a syntax tree a kind, and many children
a field of their parent.  The linter tells some of them apart; every other name is kept as it is.
Keywords and punctuation are kinds of their own.
-/

namespace LoopLint

/-- What a syntax node is. -/
inductive Kind where
  | forStatement
  | forInStatement
  | lexicalDeclaration
  | variableDeclaration
  | variableDeclarator
  | expressionStatement
  | emptyStatement
  | identifier
  | shorthandProperty
  | shorthandPattern
  | propertyIdentifier
  | subscript
  | member
  | binary
  | unary
  | update
  | assignment
  | augmentedAssignment
  | parenthesized
  | arrayPattern
  | restPattern
  | pairPattern
  | assignmentPattern
  | objectAssignmentPattern
  | pair
  | number
  | comment
  | htmlComment
  | plusPlus
  | plusAssign
  | plus
  | less
  | closeParen
  | semicolon
  | deleteWord
  | other (name : String)
deriving DecidableEq, Repr

namespace Kind

/-- The kind that a grammar calls `name`. -/
def ofName (name : String) : Kind :=
  match name with
  | "for_statement" => .forStatement
  | "for_in_statement" => .forInStatement
  | "lexical_declaration" => .lexicalDeclaration
  | "variable_declaration" => .variableDeclaration
  | "variable_declarator" => .variableDeclarator
  | "expression_statement" => .expressionStatement
  | "empty_statement" => .emptyStatement
  | "identifier" => .identifier
  | "shorthand_property_identifier" => .shorthandProperty
  | "shorthand_property_identifier_pattern" => .shorthandPattern
  | "property_identifier" => .propertyIdentifier
  | "subscript_expression" => .subscript
  | "member_expression" => .member
  | "binary_expression" => .binary
  | "unary_expression" => .unary
  | "update_expression" => .update
  | "assignment_expression" => .assignment
  | "augmented_assignment_expression" => .augmentedAssignment
  | "parenthesized_expression" => .parenthesized
  | "array_pattern" => .arrayPattern
  | "rest_pattern" => .restPattern
  | "pair_pattern" => .pairPattern
  | "assignment_pattern" => .assignmentPattern
  | "object_assignment_pattern" => .objectAssignmentPattern
  | "pair" => .pair
  | "number" => .number
  | "comment" => .comment
  | "html_comment" => .htmlComment
  | "++" => .plusPlus
  | "+=" => .plusAssign
  | "+" => .plus
  | "<" => .less
  | ")" => .closeParen
  | ";" => .semicolon
  | "delete" => .deleteWord
  | s => .other s

/-- What a grammar calls the kind. -/
def name : Kind → String
  | forStatement => "for_statement"
  | forInStatement => "for_in_statement"
  | lexicalDeclaration => "lexical_declaration"
  | variableDeclaration => "variable_declaration"
  | variableDeclarator => "variable_declarator"
  | expressionStatement => "expression_statement"
  | emptyStatement => "empty_statement"
  | identifier => "identifier"
  | shorthandProperty => "shorthand_property_identifier"
  | shorthandPattern => "shorthand_property_identifier_pattern"
  | propertyIdentifier => "property_identifier"
  | subscript => "subscript_expression"
  | member => "member_expression"
  | binary => "binary_expression"
  | unary => "unary_expression"
  | update => "update_expression"
  | assignment => "assignment_expression"
  | augmentedAssignment => "augmented_assignment_expression"
  | parenthesized => "parenthesized_expression"
  | arrayPattern => "array_pattern"
  | restPattern => "rest_pattern"
  | pairPattern => "pair_pattern"
  | assignmentPattern => "assignment_pattern"
  | objectAssignmentPattern => "object_assignment_pattern"
  | pair => "pair"
  | number => "number"
  | comment => "comment"
  | htmlComment => "html_comment"
  | plusPlus => "++"
  | plusAssign => "+="
  | plus => "+"
  | less => "<"
  | closeParen => ")"
  | semicolon => ";"
  | deleteWord => "delete"
  | other name => name

/-- Comments, which a syntax tree may hold anywhere and which mean nothing to the program. -/
def isComment : Kind → Bool
  | comment | htmlComment => true
  | _ => false

end Kind

/-- Which part of its parent a syntax node is. -/
inductive Field where
  | body
  | initializer
  | condition
  | increment
  | name
  | value
  | left
  | right
  | operator
  | object
  | property
  | index
  | key
  | other (name : String)
deriving DecidableEq, Repr

/-- The field that a grammar calls `s`. -/
def Field.ofName (s : String) : Field :=
  match s with
  | "body" => .body
  | "initializer" => .initializer
  | "condition" => .condition
  | "increment" => .increment
  | "name" => .name
  | "value" => .value
  | "left" => .left
  | "right" => .right
  | "operator" => .operator
  | "object" => .object
  | "property" => .property
  | "index" => .index
  | "key" => .key
  | s => .other s

end LoopLint
