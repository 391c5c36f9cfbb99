import SchemaAtlas.TypeUse

/-!
# Problems

Everything that can be wrong with a schema, each with what a reader needs to know about it, and the
wording of each in one place.
-/

namespace SchemaAtlas

/-- What a list of names can hold. -/
inductive Listed where
  | argument
  | directiveLocation
  | enumValue
  | field
  | inputField
  | interface
  | memberType
deriving DecidableEq

def Listed.title : Listed → String
  | argument => "Argument"
  | directiveLocation => "Directive location"
  | enumValue => "Enum value"
  | field => "Field"
  | inputField => "Input field"
  | interface => "Implemented interface"
  | memberType => "Member type"

inductive Problem where
  | circularDirective (directive : String)
  | circularInputObject (type : String)
  | doubleUnderscoreName (element : ElementPath)
  | duplicateDirective (directive : String)
  | duplicateUsageArgument (argument directive : String) (element : ElementPath)
  | duplicateName (listed : Listed) (name : String) (element : ElementPath)
  | duplicateOperation (operation : OperationKind)
  | duplicateSchema
  | duplicateType (type : String)
  | emptyDefinition (kind : TypeKind) (type : String)
  | emptyExtension (element : ElementPath)
  | reservedEnumValue (type value : String)
  | extensionChangesType (element : ElementPath) (existing new : TypeUse)
  | extensionKindMismatch (actual extension : TypeKind) (type : String)
  | extensionOfUndefinedType (extension : TypeKind) (type : String)
  | implementsNonInterface (kind : TypeKind) (type : String) (targetKind : TypeKind)
      (target : String)
  | incompatibleDefault (element : ElementPath) (expected : TypeUse) (value : Value)
  | incompatibleUsageArgument (argument directive : String) (element : ElementPath)
      (expected : TypeUse) (value : Value)
  | invalidInterfaceFieldType (element : ElementPath) (expected found : TypeUse)
      (interface : String)
  | interfaceArgumentMismatch (element : ElementPath) (expected found : TypeUse)
      (interface : String)
  | invalidDirectiveLocation (directive : String) (element : ElementPath)
      (location : DirectiveLocation)
  | invalidDeprecation (directive : String) (element : ElementPath)
  | missingInterfaceArgument (argument : String) (element : ElementPath) (interface : String)
  | missingInterfaceField (kind : TypeKind) (type field interface : String)
  | missingTransitiveInterface (kind : TypeKind) (type missing interface : String)
  | missingUsageArgument (argument directive : String) (element : ElementPath)
  | notInputType (element : ElementPath) (kind : TypeKind) (type : String)
  | notOutputType (element : ElementPath) (kind : TypeKind) (type : String)
  | nullUsageArgument (argument directive : String) (element : ElementPath)
  | operationTypesNotDistinct (first second : OperationKind) (type : String)
  | operationTypeNotObject (operation : OperationKind) (kind : TypeKind) (type : String)
  | queryTypeNotDefined
  | requiredExtraArgument (element : ElementPath) (interface : String)
  | rootTypeReferenced (operation : OperationKind) (referencedBy : ElementPath) (type : String)
  | schemaWithoutOperations
  | schemaWithoutQuery
  | selfImplementingInterface (interface : String)
  | schemaExtensionWithoutSchema
  | undefinedUsageArgument (argument directive : String) (element : ElementPath)
  | undefinedDirective (directive : String) (element : ElementPath)
  | undefinedInterface (interface : String) (element : ElementPath)
  | undefinedType (type : String) (element : ElementPath)
  | undefinedUnionMember (type union : String)
  | undefinedOperationType (operation : OperationKind) (type : String)
  | unionMemberNotObject (kind : TypeKind) (type union : String)
  | unrepeatableDirective (directive : String) (element : ElementPath)

namespace Problem

/-- The description of an element at the start of a sentence. -/
def opening (element : ElementPath) : String :=
  match element.text.toList with
  | [] => ""
  | c :: rest => String.ofList (c.toUpper :: rest)

def message : Problem → String
  | circularDirective directive =>
    s!"Directive '@{directive}' has circular reference to itself."
  | circularInputObject type =>
    s!"Input object '{type}' has circular reference requiring a non-null value."
  | doubleUnderscoreName element =>
    s!"{opening element} must not have a name starting with '__'."
  | duplicateDirective directive => s!"Directive '{directive}' is already defined."
  | duplicateUsageArgument argument directive element =>
    s!"Directive '@{directive}' applied to {element.text} supplies argument '{argument}' " ++
      "more than once."
  | duplicateName listed name element =>
    s!"{listed.title} '{name}' is already declared on {element.text}."
  | duplicateOperation operation =>
    s!"Schema declares the {operation.name} operation type more than once."
  | duplicateSchema => "Schema is already defined."
  | duplicateType type => s!"Type '{type}' is already defined."
  | emptyDefinition kind type =>
    s!"{kind.title} '{type}' must define at least one {kind.memberNoun}."
  | emptyExtension element => s!"Extension of {element.text} makes no changes."
  | reservedEnumValue type value =>
    s!"Enum value '{value}' of enum '{type}' must not be named 'true', 'false' or 'null'."
  | extensionChangesType element existing new =>
    s!"Extension of {element.text} changes its type from '{existing.text}' to '{new.text}'."
  | extensionKindMismatch actual extension type =>
    s!"Cannot extend {extension.name} '{type}' because it is defined as {actual.described}."
  | extensionOfUndefinedType extension type =>
    s!"Cannot extend {extension.name} '{type}' because it is not defined."
  | implementsNonInterface kind type targetKind target =>
    s!"{kind.title} '{type}' cannot implement '{target}' because it is {targetKind.described}, " ++
      "not an interface."
  | incompatibleDefault element expected value =>
    s!"Default value {value.text} of {element.text} is not compatible with type " ++
      s!"'{expected.text}'."
  | incompatibleUsageArgument argument directive element expected value =>
    s!"Value {value.text} for argument '{argument}' of directive '@{directive}' applied to " ++
      s!"{element.text} is not compatible with type '{expected.text}'."
  | invalidInterfaceFieldType element expected found interface =>
    s!"{opening element} has type '{found.text}', which is not a valid implementation of type " ++
      s!"'{expected.text}' declared on interface '{interface}'."
  | interfaceArgumentMismatch element expected found interface =>
    s!"{opening element} has type '{found.text}', but interface '{interface}' declares it with " ++
      s!"type '{expected.text}'."
  | invalidDirectiveLocation directive element location =>
    s!"Directive '@{directive}' is not allowed at location {location.name} ({element.text})."
  | invalidDeprecation directive element =>
    s!"Directive '@{directive}' cannot be applied to {element.text} because it is required."
  | missingInterfaceArgument argument element interface =>
    s!"{opening element} is missing argument '{argument}' declared on interface '{interface}'."
  | missingInterfaceField kind type field interface =>
    s!"{kind.title} '{type}' is missing field '{field}' declared on interface '{interface}'."
  | missingTransitiveInterface kind type missing interface =>
    s!"{kind.title} '{type}' is missing implements '{missing}' declared on interface " ++
      s!"'{interface}'."
  | missingUsageArgument argument directive element =>
    s!"Directive '@{directive}' applied to {element.text} requires argument '{argument}'."
  | notInputType element kind type =>
    s!"{opening element} must have an input type, but '{type}' is {kind.described}."
  | notOutputType element kind type =>
    s!"{opening element} must have an output type, but '{type}' is {kind.described}."
  | nullUsageArgument argument directive element =>
    s!"Directive '@{directive}' applied to {element.text} requires a non-null value for " ++
      s!"argument '{argument}'."
  | operationTypesNotDistinct first second type =>
    s!"The {first.name} and {second.name} operation types must be different types, but both " ++
      s!"are '{type}'."
  | operationTypeNotObject operation kind type =>
    s!"Type '{type}' of the {operation.name} operation must be an object type, but is " ++
      s!"{kind.described}."
  | queryTypeNotDefined => "Type 'Query' is not defined."
  | requiredExtraArgument element interface =>
    s!"{opening element} is not declared on interface '{interface}' and must be nullable."
  | rootTypeReferenced operation referencedBy type =>
    s!"Type '{type}' cannot be used as the {operation.name} operation type because it is " ++
      s!"referenced by {referencedBy.text}."
  | schemaWithoutOperations => "Schema must declare at least one operation type."
  | schemaWithoutQuery => "Schema must declare the query operation type."
  | selfImplementingInterface interface => s!"Interface '{interface}' cannot implement itself."
  | schemaExtensionWithoutSchema => "Cannot extend schema because no schema is defined."
  | undefinedUsageArgument argument directive element =>
    s!"Directive '@{directive}' applied to {element.text} has no argument named '{argument}'."
  | undefinedDirective directive element =>
    s!"Undefined directive '@{directive}' applied to {element.text}."
  | undefinedInterface interface element =>
    s!"Undefined interface '{interface}' implemented by {element.text}."
  | undefinedType type element => s!"Undefined type '{type}' for {element.text}."
  | undefinedUnionMember type union =>
    s!"Undefined type '{type}' for member of union '{union}'."
  | undefinedOperationType operation type =>
    s!"Undefined type '{type}' for the {operation.name} operation."
  | unionMemberNotObject kind type union =>
    s!"Member '{type}' of union '{union}' must be an object type, but is {kind.described}."
  | unrepeatableDirective directive element =>
    s!"Directive '@{directive}' is not repeatable but is applied more than once to " ++
      s!"{element.text}."

end Problem

/-- A problem, the element it was found on, and its place in the source if it has one. -/
structure Diagnostic where
  problem : Problem
  location : Option SourceLocation
  path : ElementPath

namespace Diagnostic

def message (d : Diagnostic) : String := d.problem.message

/-- The message after the location, if there is one. -/
def located (d : Diagnostic) : String :=
  match d.location with
  | some location => location.text ++ ": " ++ d.message
  | none => d.message

end Diagnostic

end SchemaAtlas
