/-!
# Paths of leaves

A leaf is addressed by segments joined with slashes. Slashes at either end of a path do not count,
those inside do.
-/

namespace VirtualModem.Config
set_option autoImplicit false

def dropSlashes (cs : List Char) : List Char :=
  cs.dropWhile (· = '/')

def trimSlashes (cs : List Char) : List Char :=
  (dropSlashes (dropSlashes cs).reverse).reverse

/-- The one form under which a leaf is kept: a slash and the path without slashes at its ends. -/
def canonical (path : String) : String :=
  .ofList ('/' :: trimSlashes path.toList)

def modemSubtree : String := "/simulation/modem"

def modemLeaf (suffix : String) : String :=
  modemSubtree ++ "/" ++ .ofList (dropSlashes suffix.toList)

end VirtualModem.Config
