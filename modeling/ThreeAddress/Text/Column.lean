/-!
# Text columns

Texts filled up with spaces to a width in code points. A text that is wider stays as it is.
-/

namespace ThreeAddress.Text

def alignLeft (width : Nat) (text : String) : String :=
  String.ofList (text.toList.rightpad width ' ')

def alignRight (width : Nat) (text : String) : String :=
  String.ofList (text.toList.leftpad width ' ')

def repeated (count : Nat) (c : Char) : String :=
  String.ofList (List.replicate count c)

end ThreeAddress.Text
