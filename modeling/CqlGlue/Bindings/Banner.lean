/-!
# Banners

What generated files begin with.

## Main definitions
* `signedMarker` stands at the top of generated Objective-C.
* `licenseComment` stands at the top of generated C, C# and Java.
-/

namespace CqlGlue.Banner

/-- The line by which tools recognise generated Objective-C. -/
def signedMarker : String := "// @generated SignedSource<<deadbeef8badf00ddefec8edfacefeed>>\n"

/-- The comment at the top of generated C, C# and Java, with an empty line after it. -/
def licenseComment : String :=
  "/*\n" ++
  "* Copyright (c) Meta Platforms, Inc. and affiliates.\n" ++
  "*\n" ++
  "* This source code is licensed under the MIT license found in the\n" ++
  "* LICENSE file in the root directory of this source tree.\n" ++
  "*/\n\n"

end CqlGlue.Banner
