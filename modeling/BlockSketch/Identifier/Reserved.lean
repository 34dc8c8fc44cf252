/-!
# Reserved: words that no variable may have as its identifier

Keywords of the language, names of the Arduino environment, and names that the generated code uses
itself.
-/

namespace BlockSketch.Identifier

/-- Keywords of C and C++. -/
def keywords : List String :=
  ["asm", "auto", "bool", "break", "case", "catch", "char", "class", "const", "const_cast",
    "continue", "default", "delete", "do", "double", "dynamic_cast", "else", "enum", "explicit",
    "export", "extern", "false", "float", "for", "friend", "goto", "if", "inline", "int", "long",
    "mutable", "namespace", "new", "operator", "private", "protected", "public", "register",
    "reinterpret_cast", "return", "short", "signed", "sizeof", "static", "static_cast", "struct",
    "switch", "template", "this", "throw", "true", "try", "typedef", "typeid", "typename",
    "union", "unsigned", "using", "virtual", "void", "volatile", "wchar_t", "while"]

/-- Names of the Arduino environment. -/
def environment : List String :=
  ["setup", "loop", "HIGH", "LOW", "INPUT", "OUTPUT", "INPUT_PULLUP", "LED_BUILTIN", "boolean",
    "byte", "word", "String", "array", "pinMode", "digitalWrite", "digitalRead", "analogRead",
    "analogReference", "analogWrite", "tone", "noTone", "shiftOut", "shiftIn", "pulseIn",
    "millis", "micros", "delay", "delayMicroseconds", "min", "max", "abs", "constrain", "map",
    "pow", "sqrt", "sin", "cos", "tan", "random", "randomSeed", "lowByte", "highByte", "bitRead",
    "bitWrite", "bitSet", "bitClear", "bit", "attachInterrupt", "detachInterrupt", "interrupts",
    "noInterrupts", "Serial", "PROGMEM"]

/-- Functions that the code of number blocks calls. -/
def functions : List String :=
  ["log", "exp", "round", "ceil", "floor", "asin", "acos", "atan", "mathIsPrime"]

/-- All words that are kept free. -/
def reserved : List String :=
  keywords ++ environment ++ functions

end BlockSketch.Identifier
