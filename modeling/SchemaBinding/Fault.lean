import SchemaBinding.BindingError
import SchemaBinding.Calendar.Range
import SchemaBinding.Issue
import SchemaBinding.Text.Utf8
import SchemaBinding.Value.Order

/-!
# Faults

Everything an operation can fail with, by cause. The wording of each is in `Fault.message`.

Specification: §7.
-/

namespace SchemaBinding

/-- Why contracts cannot be declared or compiled (spec §7). -/
inductive SchemaFault where
  /-- The target is a value, not a class. -/
  | notClass (typeName : String)
  /-- A field name is no identifier. -/
  | notIdentifier (owner : String) (name : Value)
  /-- A field name is reserved. -/
  | reserved (owner name : String)
  /-- An argument is no contract fragment. -/
  | notFragment (owner field typeName : String)
  /-- Requiredness was declared before and may not be declared again. -/
  | conflict (owner field existing : String)
  /-- A class has no contracts, so that it is no schema. -/
  | noContracts (owner : String)
  /-- The elements of an array field are arrays. -/
  | nestedArray (owner field : String)
  /-- A declared type has no conversion. -/
  | unsupportedType (owner field text : String)

/-- An argument of the wrong type. -/
inductive TypeFault where
  /-- An ordering check was given a bound that is no number. -/
  | bound (symbol : String) (actual : JsonKind)
  /-- A union was given a text. -/
  | textUnion
  /-- A value has no elements. -/
  | notIterable (typeName : String)
  /-- A source key is empty or no text. -/
  | sourceKey
  /-- A transform or a predicate cannot be called. -/
  | notCallable (fragment : String)
  /-- A field was declared with something that is no contract fragment. -/
  | notFragment (typeName : String)
  /-- A depth limit is no integer. -/
  | maxDepth (typeName : String)
  /-- A strictness is no boolean. -/
  | strict (typeName : String)
  /-- A declared type has no conversion. -/
  | unsupportedType (text : String)
  /-- The bases of a class cannot be put into one order. -/
  | inconsistentBases (names : List String)
  /-- A base of a class is named twice. -/
  | duplicateBase (name : String)
  /-- A class that is no schema class was given a binder. -/
  | noKeywords (className : String)
  /-- A value was called. -/
  | called (typeName : String)
  /-- A class was called with an argument that it does not take. -/
  | noArguments (className : String)
  /-- A value was asked to make an instance. -/
  | noInstances (typeName : String)
  /-- A value cannot be a key. -/
  | unhashable (typeName : String)
  /-- Two values cannot be put in order, of which one was to come before the other. -/
  | unordered (cause : OrderFault)
  /-- A key cannot be written in JSON. -/
  | jsonKey (typeName : String)
  /-- A text was looked for in bytes. -/
  | textInBytes
  /-- A field is given under a name that is no text. -/
  | keywords
  /-- A field has the name of an argument that a function takes itself. -/
  | repeatedArgument (function name : String)
  /-- A setting is not known. -/
  | unknownSetting (name : String)
  /-- An instance of a class without attributes was to be shown. -/
  | noAttributes
  /-- The qualified name of a class is no text. -/
  | qualifiedName (typeName : String)
  /-- The cell of a class is none. -/
  | classCell (typeName : String)
deriving DecidableEq, Repr

/-- An argument out of range. -/
inductive ValueFault where
  /-- A union has no members. -/
  | emptyUnion
  /-- The elements of an array are arrays. -/
  | nestedArray
  /-- A depth limit is not positive. -/
  | maxDepth
  /-- A log level has the wrong type. -/
  | levelType (typeName : String)
  /-- A log level has no such name. -/
  | level (text : String)
  /-- A log format is not known. -/
  | format (text : String)
  /-- An integer has too many digits to be shown. -/
  | digits
  /-- An integer is written with too many digits to be read. -/
  | numeral (count : Nat)
  /-- A text is no integer in a base. -/
  | integer (base : Nat) (text : String)
  /-- A text is no floating-point number. -/
  | decimal (text : String)
  /-- A character is written with a code point beyond the last. -/
  | codePoint
  /-- The name of a class holds a null character. -/
  | nullInName
  /-- A part of a date or a time is out of range. -/
  | range (cause : Calendar.RangeFault)
deriving DecidableEq, Repr

/-- A number too large for its place. -/
inductive OverflowFault where
  /-- An integer is beyond the floating-point numbers. -/
  | double
  /-- A code point is written with a number of more than 31 bits. -/
  | codePoint
deriving DecidableEq, Repr

/-- A name that something does not have. -/
inductive AttributeFault where
  /-- A value of that type, or an instance of that class, does not have it. -/
  | ofInstance (typeName name : String)
  /-- An instance of that class cannot be given it. -/
  | unsettable (typeName name : String)
  /-- A class does not have it. -/
  | ofClass (className name : String)
deriving DecidableEq, Repr

/-- What an operation fails with (spec §7). -/
inductive Fault where
  /-- A payload cannot be bound. -/
  | binding (error : BindingError)
  /-- Contracts cannot be declared or compiled. -/
  | schema (cause : SchemaFault)
  /-- A schema table is invalid. -/
  | table (issues : List Issue)
  /-- Settings are invalid. -/
  | settings (issues : List Issue)
  /-- An argument has the wrong type. -/
  | type (cause : TypeFault)
  /-- An argument is out of range. -/
  | value (cause : ValueFault)
  /-- A number is too large. -/
  | overflow (cause : OverflowFault)
  /-- A name is missing. -/
  | attribute (cause : AttributeFault)
  /-- A log level has no filter of its own. -/
  | unknownLevel (level : Int)
  /-- A word has no meaning of its own. -/
  | unknownWord (word : String)
  /-- A text has no first character. -/
  | emptyText
  /-- Bytes are not text. -/
  | decode (cause : Text.Utf8.DecodeFault)

namespace SchemaFault

/-- The fault as words. -/
def message : SchemaFault → String
  | .notClass typeName => "schema target must be a class, got " ++ typeName
  | .notIdentifier owner name =>
    owner ++ ": field name must be a Python identifier, got " ++ name.text
  | .reserved owner name => owner ++ ": " ++ Text.quoted name ++ " cannot be used as a field name"
  | .notFragment owner field typeName =>
    owner ++ "." ++ field ++ ": expected contract fragment, got " ++ typeName
  | .conflict owner field existing =>
    owner ++ "." ++ field ++ ": cannot declare requiredness, already set as " ++ existing
  | .noContracts owner =>
    owner ++ " has no declared contracts; subclass JSONObject or declare fields first"
  | .nestedArray owner field =>
    owner ++ "." ++ field ++
      ": array elements may not be arrays unless the field is declared passthrough"
  | .unsupportedType owner field text =>
    owner ++ "." ++ field ++ ": unsupported declared type " ++ text

end SchemaFault

/-- A name between apostrophes. -/
def apostrophes (name : String) : String := "'" ++ name ++ "'"

namespace TypeFault

/-- The fault as words. -/
def message : TypeFault → String
  | .bound symbol actual => symbol ++ " requires a numeric bound, got " ++ actual.name
  | .textUnion => "union() expects a collection of values, not a string"
  | .notIterable typeName => apostrophes typeName ++ " object is not iterable"
  | .sourceKey => "map_from() expects a non-empty string key"
  | .notCallable fragment => fragment ++ "() expects a callable"
  | .notFragment typeName => "field() expects contract fragments, got " ++ typeName
  | .maxDepth typeName => "max_depth must be an integer, got " ++ typeName
  | .strict typeName => "strict must be a bool, got " ++ typeName
  | .unsupportedType text => "unsupported declared type " ++ text
  | .inconsistentBases names =>
    "Cannot create a consistent method resolution\norder (MRO) for bases " ++ ", ".intercalate names
  | .duplicateBase name => "duplicate base class " ++ name
  | .noKeywords className => className ++ ".__init_subclass__() takes no keyword arguments"
  | .called typeName => apostrophes typeName ++ " object is not callable"
  | .noArguments className => className ++ "() takes no arguments"
  | .noInstances typeName =>
    typeName ++ ".__new__(X): X is not a type object (" ++ typeName ++ ")"
  | .unhashable typeName => "unhashable type: " ++ apostrophes typeName
  | .unordered cause => cause.message "<"
  | .jsonKey typeName => "keys must be str, int, float, bool or None, not " ++ typeName
  | .textInBytes => "a bytes-like object is required, not 'str'"
  | .keywords => "keywords must be strings"
  | .repeatedArgument function name =>
    function ++ "() got multiple values for argument " ++ apostrophes name
  | .unknownSetting name =>
    "BinderSettings.__init__() got an unexpected keyword argument " ++ apostrophes name
  | .noAttributes => "vars() argument must have __dict__ attribute"
  | .qualifiedName typeName => "type __qualname__ must be a str, not " ++ typeName
  | .classCell typeName =>
    "__classcell__ must be a nonlocal cell, not <class " ++ apostrophes typeName ++ ">"

end TypeFault

/-- A part of a date or a time that is out of range, as words. -/
def rangeMessage : Calendar.RangeFault → String
  | .year n => "year " ++ toString n ++ " is out of range"
  | .month => "month must be in 1..12"
  | .day => "day is out of range for month"
  | .hour => "hour must be in 0..23"
  | .minute => "minute must be in 0..59"
  | .second => "second must be in 0..59"
  | .offset micros =>
    "offset must be a timedelta strictly between -timedelta(hours=24) and timedelta(hours=24), " ++
      "not " ++ Value.durationText micros ++ "."

namespace ValueFault

/-- The number of characters that are shown of a text that is no integer. -/
def shownWidth : Nat := 200

/-- The fault as words. -/
def message : ValueFault → String
  | .emptyUnion => "union() requires at least one admissible value"
  | .nestedArray => "array elements may not be arrays"
  | .maxDepth => "max_depth must be >= 1"
  | .levelType typeName => "level must be int or str, got " ++ typeName
  | .level text => "unsupported logging level " ++ text
  | .format text => "unsupported log format " ++ text ++ "; expected one of ['json', 'text']"
  | .digits =>
    "Exceeds the limit (4300 digits) for integer string conversion; " ++
      "use sys.set_int_max_str_digits() to increase the limit"
  | .numeral count =>
    "Exceeds the limit (4300 digits) for integer string conversion: value has " ++
      toString count ++ " digits; use sys.set_int_max_str_digits() to increase the limit"
  | .integer base text =>
    "invalid literal for int() with base " ++ toString base ++ ": " ++
      String.ofList ((Text.quoted text).toList.take shownWidth)
  | .decimal text => "could not convert string to float: " ++ Text.quoted text
  | .codePoint => "chr() arg not in range(0x110000)"
  | .nullInName => "type name must not contain null characters"
  | .range cause => rangeMessage cause

end ValueFault

namespace OverflowFault

/-- The fault as words. -/
def message : OverflowFault → String
  | .double => "int too large to convert to float"
  | .codePoint => "Python int too large to convert to C int"

end OverflowFault

namespace AttributeFault

/-- The number of bytes of a type's name that are shown where a name is looked up. -/
def readWidth : Nat := 50

/-- The number of bytes of a type's name that are shown where a name is set. -/
def setWidth : Nat := 100

/-- The fault as words. -/
def message : AttributeFault → String
  | .ofInstance typeName name =>
    apostrophes (Text.Utf8.cut readWidth typeName) ++ " object has no attribute " ++
      apostrophes name
  | .unsettable typeName name =>
    apostrophes (Text.Utf8.cut setWidth typeName) ++ " object has no attribute " ++
      apostrophes name
  | .ofClass className name =>
    "type object " ++ apostrophes (Text.Utf8.cut readWidth className) ++ " has no attribute " ++
      apostrophes name

end AttributeFault

/-- Why bytes are no text, as words. -/
def decodeReason : Text.Utf8.DecodeCause → String
  | .start => "invalid start byte"
  | .continuation => "invalid continuation byte"
  | .truncated => "unexpected end of data"

/-- A place where bytes are no text, as words. -/
def decodeMessage (f : Text.Utf8.DecodeFault) : String :=
  let place :=
    if f.first = f.last then
      "byte 0x" ++ String.ofList (Text.hexDigits 2 f.byte.toNat) ++ " in position " ++
        toString f.first
    else "bytes in position " ++ toString f.first ++ "-" ++ toString f.last
  "'utf-8' codec can't decode " ++ place ++ ": " ++ decodeReason f.cause

namespace Fault

/-- The fault as words. -/
def message : Fault → String
  | .binding error => error.message
  | .schema cause => cause.message
  | .table issues => "invalid schema table:\n" ++ Issue.render issues
  | .settings issues => "invalid settings:\n" ++ Issue.render issues
  | .type cause => cause.message
  | .value cause => cause.message
  | .overflow cause => cause.message
  | .attribute cause => cause.message
  | .unknownLevel level => toString level
  | .unknownWord word => Text.quoted word
  | .emptyText => "string index out of range"
  | .decode cause => decodeMessage cause

/-- The fault of a binding error: the error itself, unless its words cannot be written because a
value in them cannot be shown (spec §7). -/
def ofBinding (error : BindingError) : Fault :=
  if error.cause.printable then .binding error else .value .digits

end Fault

end SchemaBinding
