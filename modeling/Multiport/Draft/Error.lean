namespace Multiport

/-- Why values cannot drive the outputs of a module. -/
inductive DraftError where
  | outputCount (expected actual : Nat)
  | outputWidth (port : String) (expected actual : Nat)
deriving DecidableEq, Repr

def DraftError.message : DraftError → String
  | outputCount expected actual =>
      "module has " ++ toString expected ++ " output ports but " ++ toString actual ++
        " output values were given"
  | outputWidth port expected actual =>
      "output port `" ++ port ++ "` is " ++ toString expected ++
        " bits wide but its value is " ++ toString actual ++ " bits wide"

end Multiport
