/-!
# Marker files

A file of the application directory means something to the router by its name alone.
-/

namespace Waymark.Scan

/-- What a file means to the router. -/
inductive Marker where
  | route
  | middleware
  | page
  | layout
  | loader
  | proxy
deriving DecidableEq

namespace Marker

/-- Every kind of marker. -/
def all : List Marker := [route, middleware, page, layout, loader, proxy]

/-- The name of the kind. -/
def name : Marker → String
  | route => "Route"
  | middleware => "Middleware"
  | page => "Page"
  | layout => "Layout"
  | loader => "Loader"
  | proxy => "Proxy"

/-- The file name that marks the kind. -/
def fileName : Marker → String
  | route => "route.rs"
  | middleware => "middleware.rs"
  | page => "page.rs"
  | layout => "layout.rs"
  | loader => "loader.rs"
  | proxy => "proxy.rs"

/-- The kind that a file name marks. -/
def ofFileName? (fileName : String) : Option Marker :=
  all.find? (·.fileName = fileName)

end Marker

end Waymark.Scan
