namespace Evidence

inductive Nothing where
  | absent
  | null

def Nothing.text : Nothing → String
  | absent => "undefined"
  | null => "null"

inductive Misuse where
  | noText
  | noJson
  | mixedNumbers
  | notIterable (name : String)
  | notSpreadable
  | notCallable (name : String)
  | notYielding (name : String)
  | notPaired (description : String)
  | noFields (owner : Nothing) (field : String)
  | notTakenApart (argument field : String)

def Misuse.message : Misuse → String
  | noText => "Cannot convert object to primitive value"
  | noJson => "Do not know how to serialize a BigInt"
  | mixedNumbers => "Cannot mix BigInt and other types, use explicit conversions"
  | notIterable name => name ++ " is not iterable"
  | notSpreadable => "Spread syntax requires ...iterable[Symbol.iterator] to be a function"
  | notCallable name => name ++ " is not a function"
  | notYielding name => name ++ " is not a function or its return value is not iterable"
  | notPaired description =>
      description ++ " is not iterable (cannot read property Symbol(Symbol.iterator))"
  | noFields owner field =>
      "Cannot read properties of " ++ owner.text ++ " (reading '" ++ field ++ "')"
  | notTakenApart argument field =>
      "Cannot destructure property '" ++ field ++ "' of '" ++ argument ++ "' as it is null."

end Evidence
