import CallAudit.Rules.Table

/-!
# The rules at hand

A table of rules about reflection and code made at run time, for use where no other table is given.
Annotations give a reason by hand, or stop the search at a method that is safe; detected APIs are
known to be dangerous; the broad buckets take what is left.
-/

namespace CallAudit

namespace Builtin

/-- Members of `System.Activator`. -/
def activator : List RuleSpec := [
  { declaringType := "System.Activator"
    member := "CreateInstance"
    parameters := some [1]
    parameterTypes := some ["System.Type"]
    family := .detectedApi, reason := "CreateInstance" },
  { declaringType := "System.Activator"
    memberPattern := "^CreateInstance(From)?$"
    family := .catchAll, reason := "KnownReflection" } ]

/-- Members of `System.AppDomain`. -/
def appDomain : List RuleSpec := [
  { declaringType := "System.AppDomain"
    member := "get_BaseDirectory"
    family := .detectedApi, reason := "SingleFileUnfriendly" },
  { declaringType := "System.AppDomain"
    memberPattern := "^CreateInstance(AndUnwrap)?$"
    parameters := some [2, 3, 8]
    parameterTypes := some ["System.String", "System.String"]
    family := .detectedApi, reason := "CreateInstance" },
  { declaringType := "System.AppDomain"
    memberPattern := "^(ReflectionOnly)?GetAssemblies$"
    family := .detectedApi, reason := "ToInvestigate_EnumMetadata" },
  { declaringType := "System.AppDomain"
    memberPattern :=
      "^(CreateInstance(AndUnwrap)?|CreateInstanceFrom(AndUnwrap)?|" ++
      "ExecuteAssembly(ByName)?|Load)$"
    family := .catchAll, reason := "KnownReflection" } ]

/-- Members of `System.Delegate`. -/
def delegate : List RuleSpec := [
  -- Overloads that name the target method by a text.
  { declaringType := "System.Delegate"
    memberPattern := "^(\\.ctor|CreateDelegate)$"
    parameterTypes := some ["*", "*", "System.String"]
    family := .catchAll, reason := "KnownReflection" },
  { declaringType := "System.Delegate"
    member := ".ctor"
    parameters := some [2]
    parameterTypes := some ["*", "System.String"]
    family := .catchAll, reason := "KnownReflection" },
  { declaringType := "System.Delegate"
    memberPattern := "^(\\.ctor|CreateDelegate)$"
    anyParameterType := "System.Reflection.MethodInfo"
    family := .catchAll, reason := "ToInvestigate" } ]

/-- Members of `System.Type`. -/
def systemType : List RuleSpec := [
  { declaringType := "System.Type"
    memberPattern := "^Find(Interfaces|Members)$"
    family := .detectedApi, reason := "ToInvestigate_EnumMetadata" },
  { declaringType := "System.Type"
    memberPattern :=
      "^Get(Constructor|Event|Field|Interface|Member|Method|MethodImpl|NestedType|Property|" ++
      "PropertyImpl|InterfaceMap)$"
    family := .catchAll, reason := "KnownReflection" },
  { declaringType := "System.Type"
    memberPattern :=
      "^Get(Constructors|Events|Fields|Interfaces|Members|Methods|NestedTypes|Properties)$"
    family := .detectedApi, reason := "KnownReflection_EnumMetadata" },
  -- object.GetType() takes no arguments and is harmless.
  { declaringType := "System.Type"
    memberPattern := "^(ReflectionOnly)?GetType$"
    parameters := some [1, 2, 3, 4, 5]
    family := .catchAll, reason := "KnownReflection" },
  { declaringType := "System.Type"
    member := "InvokeMember"
    family := .catchAll, reason := "KnownReflection" },
  { declaringType := "System.Type"
    memberPattern :=
      "^(GetTypeFromCLSID|GetTypeFromProgID|MakeArrayType|MakeGenericMethodParameter|" ++
      "MakeGenericSignatureType)$"
    family := .catchAll, reason := "ToInvestigate" },
  { declaringType := "System.Type"
    member := "MakeGenericType"
    family := .detectedApi, reason := "DynamicGenericInstantiation" } ]

/-- Members of `System.Reflection.Assembly`. -/
def assembly : List RuleSpec := [
  { declaringType := "System.Reflection.Assembly"
    memberPattern := "^get_(CodeBase|EscapedCodeBase|Location)$"
    family := .detectedApi, reason := "SingleFileUnfriendly" },
  { declaringType := "System.Reflection.Assembly"
    memberPattern := "^(get_CustomAttributes|GetCustomAttributes|IsDefined)$"
    family := .detectedApi, reason := "KeepUsedAttributeTypesOnlyUnsafe" },
  { declaringType := "System.Reflection.Assembly"
    memberPattern :=
      "^(get_DefinedTypes|get_ExportedTypes|get_Modules|GetExportedTypes|GetForwardedTypes|" ++
      "GetLoadedModules|GetModules|GetReferencedAssemblies|GetTypes)$"
    family := .detectedApi, reason := "ToInvestigate_EnumMetadata" },
  { declaringType := "System.Reflection.Assembly"
    member := "CreateInstance"
    parameters := some [2, 3, 8]
    parameterTypes := some ["System.String", "System.String"]
    family := .detectedApi, reason := "CreateInstance" },
  { declaringType := "System.Reflection.Assembly"
    memberPattern :=
      "^(get_EntryPoint|GetFile|GetFiles|GetManifestResourceInfo|GetManifestResourceNames|" ++
      "GetManifestResourceStream|GetModule|GetSatelliteAssembly)$"
    family := .catchAll, reason := "ToInvestigate" },
  { declaringType := "System.Reflection.Assembly"
    memberPattern :=
      "^(CreateInstance|GetType|Load|LoadWithPartialName|LoadFile|LoadFrom|UnsafeLoadFrom|" ++
      "LoadModule|ReflectionOnlyLoad|ReflectionOnlyLoadFrom)$"
    family := .catchAll, reason := "KnownReflection" } ]

/-- Attributes and members. -/
def attributesAndMembers : List RuleSpec := [
  { declaringType := "System.Reflection.CustomAttributeData"
    member := "GetCustomAttributes"
    family := .detectedApi, reason := "KeepUsedAttributeTypesOnlyUnsafe" },
  { declaringType := "System.Reflection.CustomAttributeExtensions"
    family := .detectedApi, reason := "KeepUsedAttributeTypesOnlyUnsafe" },
  { declaringTypePattern := "^System\\.Reflection\\.(MemberInfo|Module|ParameterInfo)$"
    memberPattern :=
      "^(get_CustomAttributes|GetCustomAttributes|GetCustomAttributesData|IsDefined)$"
    family := .detectedApi, reason := "KeepUsedAttributeTypesOnlyUnsafe" },
  { declaringType := "System.Reflection.EventInfo"
    member := "GetOtherMethods"
    family := .catchAll, reason := "KnownReflection" },
  { declaringTypePattern := "^System\\.Reflection\\.(FieldInfo|MethodBase)$"
    member := "GetFieldFromHandle"
    family := .catchAll, reason := "ToInvestigate" },
  { declaringTypePattern := "^System\\.Reflection\\.(FieldInfo|ParameterInfo|PropertyInfo)$"
    memberPattern := "^Get(Optional|Required)CustomModifiers$"
    family := .catchAll, reason := "KnownReflection" },
  { declaringType := "System.Reflection.MethodBase"
    member := "GetMethodBody"
    family := .detectedApi, reason := "ToInvestigate_EnumMetadata" },
  { declaringType := "System.Reflection.MethodInfo"
    member := "get_ReturnTypeCustomAttributes"
    family := .detectedApi, reason := "KeepUsedAttributeTypesOnlyUnsafe" },
  { declaringType := "System.Reflection.MethodInfo"
    member := "CreateDelegate"
    family := .catchAll, reason := "ToInvestigate" },
  { declaringType := "System.Reflection.MethodInfo"
    member := "MakeGenericMethod"
    family := .detectedApi, reason := "DynamicGenericInstantiation" },
  { declaringType := "System.Reflection.Module"
    member := "FindTypes"
    family := .detectedApi, reason := "ToInvestigate_EnumMetadata" },
  { declaringType := "System.Reflection.Module"
    memberPattern :=
      "^(GetField|GetMethod|GetMethodImpl|GetType|ResolveField|ResolveMember|ResolveMethod|" ++
      "ResolveSignature|ResolveString|ResolveType)$"
    family := .catchAll, reason := "KnownReflection" },
  { declaringType := "System.Reflection.Module"
    memberPattern := "^Get(Fields|Methods|Types)$"
    family := .detectedApi, reason := "KnownReflection_EnumMetadata" },
  { declaringType := "System.Reflection.ParameterInfo"
    memberPattern := "^(get_Member|GetRealObject)$"
    family := .catchAll, reason := "ToInvestigate" },
  -- Accessors are only kept when referenced directly.
  { declaringType := "System.Reflection.PropertyInfo"
    memberPattern :=
      "^(get_GetMethod|GetAccessors|GetGetMethod|get_SetMethod|GetSetMethod|GetValue|" ++
      "SetValue)$"
    family := .catchAll, reason := "ToInvestigate" },
  { declaringType := "System.Reflection.ReflectionContext"
    family := .catchAll, reason := "ToInvestigate" },
  { declaringType := "System.Reflection.ReflectionTypeLoadException"
    member := "GetObjectData"
    family := .catchAll, reason := "ToInvestigate" },
  { declaringType := "System.Reflection.TypeDelegator"
    memberPattern :=
      "^(GetConstructorImpl|GetEvent|GetField|GetInterface|GetMember|GetMethodImpl|" ++
      "GetNestedType|GetPropertyImpl|GetInterfaceMap|InvokeMember)$"
    family := .catchAll, reason := "KnownReflection" },
  { declaringType := "System.Reflection.TypeDelegator"
    memberPattern := "^(GetCustomAttributes|IsDefined)$"
    family := .detectedApi, reason := "KeepUsedAttributeTypesOnlyUnsafe" },
  { declaringType := "System.Reflection.TypeDelegator"
    memberPattern :=
      "^Get(Constructors|Events|Fields|Interfaces|Members|Methods|NestedTypes|Properties)$"
    family := .detectedApi, reason := "KnownReflection_EnumMetadata" },
  { declaringType := "System.Reflection.TypeInfo"
    memberPattern :=
      "^(get_Declared(Constructors|Events|Members|Methods|NestedTypes|Properties)|" ++
      "get_ImplementedInterfaces|GetDeclaredMethods)$"
    family := .detectedApi, reason := "KnownReflection_EnumMetadata" },
  { declaringType := "System.Reflection.TypeInfo"
    memberPattern := "^GetDeclared(Event|Field|Method|NestedType|Property)$"
    family := .catchAll, reason := "KnownReflection" },
  { declaringType := "System.Reflection.Metadata"
    member := "TryGetRawMetadata"
    family := .catchAll, reason := "KnownReflection" } ]

/-- Members of `System.Reflection.Emit`. -/
def emit : List RuleSpec := [
  { declaringType := "System.Reflection.Emit.ModuleBuilder"
    member := "GetMethodImpl"
    family := .detectedApi, reason := "GetMethod" },
  { declaringType := "System.Reflection.Emit.TypeBuilder"
    member := "DefineDefaultConstructor"
    family := .detectedApi, reason := "DefineDefaultConstructor" },
  { declaringTypePattern := "^System\\.Reflection\\.Emit"
    family := .catchAll, reason := "ToInvestigate" } ]

/-- Members of `System.Resources`. -/
def resources : List RuleSpec := [
  { declaringType := "System.Resources.ResourceManager"
    member := ".ctor"
    parameters := some [3]
    anyParameterType := "System.Type"
    family := .detectedApi, reason := "CustomResourceSet" },
  { declaringType := "System.Resources.ResourceManager"
    member := "CreateFileBasedResourceManager"
    family := .detectedApi, reason := "CustomResourceSet" },
  { declaringType := "System.Resources.ResourceManager"
    memberPattern := "^(get_FallbackLocation|CommonAssemblyInit)$"
    family := .catchAll, exempt := true },
  -- ResourceManager(Type) only reads the type's assembly and namespace.
  { declaringType := "System.Resources.ResourceManager"
    member := ".ctor"
    parameters := some [1]
    parameterTypes := some ["System.Type"]
    family := .catchAll, exempt := true },
  { declaringType := "System.Resources.ResourceManager"
    member := ".ctor"
    parameters := some [2]
    parameterTypes := some ["System.String", "System.Reflection.Assembly"]
    family := .catchAll, exempt := true },
  { declaringType := "System.Resources.ResourceManager"
    family := .catchAll, reason := "ToInvestigate" },
  { declaringType := "System.Resources.ResourceManager"
    member := "GetSatelliteContractVersion"
    family := .annotated, safe := true },
  { declaringType := "System.Resources.ManifestBasedResourceGroveler"
    memberPattern := "^(CreateResourceSet|GetNeutralResourcesLanguage)$"
    family := .annotated, safe := true },
  { declaringType := "System.Resources.ResourceReader"
    member := "InitializeBinaryFormatter"
    family := .annotated, reason := "ResourceBinaryFormatter" },
  { declaringTypePattern :=
      "^System\\.Resources\\.(RuntimeResourceSet|ResourceReader/ResourceEnumerator)$"
    family := .annotated, reason := "ReadingResources" } ]

/-- Members of `System.Runtime.InteropServices`. -/
def interopServices : List RuleSpec := [
  { declaringTypePattern :=
      "^System\\.Runtime\\.InteropServices\\.(CoClassAttribute|ComDefaultInterfaceAttribute|" ++
      "ComEventInterfaceAttribute|ComSourceInterfaceAttribute|GuidAttribute|" ++
      "ProgIdAttribute|NativeLibrary)$"
    family := .catchAll, reason := "ToInvestigate" },
  { declaringType := "System.Runtime.InteropServices.ComAwareEventInfo"
    member := "GetDataForComInvocation"
    family := .detectedApi, reason := "ComGetAttributesSimple" },
  { declaringType := "System.Runtime.InteropServices.Marshal"
    memberPattern :=
      "^(GetTypeFromCLSID|BindToMoniker|CreateAggregatedObject|CreateWrapperOfType|" ++
      "GetComInterfaceForObject|GetComObjectData|GetEndComSlot|GetStartComSlot|" ++
      "GetDispatchForObject|GetIUnknownForObject|GetObjectForIUnknown|" ++
      "GetTypedObjectForIUnknown|GetUniqueObjectForIUnknown|IsComObject|" ++
      "IsTypeVisibleFromCom|QueryInterface|ReleaseComObject|SetComObjectData)$"
    family := .catchAll, reason := "ToInvestigate" },
  { declaringType := "System.Runtime.InteropServices.Marshal"
    memberPattern :=
      "^(GetDelegateForFunctionPointer|GetNativeVariantForObject|GetObjectForNativeVariant|" ++
      "GetObjectsForNativeVariants|PtrToStructure|StructureToPtr|SizeOf|OffsetOf)$"
    family := .catchAll, reason := "ToInvestigate" },
  { declaringType := "System.Runtime.InteropServices.Marshal"
    member := "OffsetOf"
    parameters := some [2]
    parameterTypes := some ["System.Type", "System.String"]
    family := .detectedApi, reason := "OffsetOf" },
  -- OffsetOf<T>(string): the type is a static generic argument.
  { declaringType := "System.Runtime.InteropServices.Marshal"
    member := "OffsetOf"
    parameters := some [1]
    parameterTypes := some ["System.String"]
    family := .detectedApi, reason := "OffsetOfSimple" } ]

/-- Members of `System.Runtime.Loader`. -/
def loader : List RuleSpec := [
  { declaringType := "System.Runtime.Loader.AssemblyLoadContext"
    memberPattern :=
      "^(GetAssemblyName|LoadFromAssemblyName|LoadFromAssemblyPath|LoadFromInMemoryModule|" ++
      "LoadFromInMemoryModuleInternal|LoadFromPath|LoadFromStream|LoadFromNativeImagePath|" ++
      "LoadUnmanagedDllFromPath)$"
    family := .catchAll, reason := "KnownReflection" } ]

/-- Members of `System.Runtime.Serialization`. -/
def serialization : List RuleSpec := [
  { declaringType := "System.Runtime.Serialization.JsonFormatGeneratorStatics"
    memberPattern :=
      "^get_(ExtensionDataProperty|GetCurrentMethod|TypeHandleProperty|MoveNextMethod|" ++
      "OnDeserializationMethod|SerializationExceptionCtor|ExtensionDataObjectCtor)$"
    family := .detectedApi, reason := "JsonFormatGeneratorStatics" },
  { declaringType := "System.Runtime.Serialization.XmlFormatGeneratorStatics"
    memberPattern :=
      "^get_(ExtensionDataProperty|ExtensionDataSetExplicitMethodInfo|" ++
      "OnDeserializationMethod|ExtensionDataObjectCtor)$"
    family := .detectedApi, reason := "XmlFormatGeneratorStatics" },
  { declaringType := "System.Runtime.Serialization.CodeGenerator"
    member := ".cctor"
    family := .detectedApi, reason := "CodeGeneratorStatic" },
  { declaringType := "System.Runtime.Serialization.CodeGenerator"
    memberPattern := "^get_(GetTypeFromHandle|ObjectEquals)$"
    family := .detectedApi, reason := "CodeGeneratorGettersSimple" },
  { declaringType := "System.Runtime.Serialization.CodeGenerator"
    member := "BeginMethod"
    family := .detectedApi, reason := "DataContractExporterCodeGenReflection" },
  { declaringType := "System.Runtime.Serialization.ObjectManager"
    member := "DoValueTypeFixup"
    family := .detectedApi, reason := "DeserializationValueTypeFixup" },
  { declaringType := "System.Runtime.Serialization.SchemaExporter"
    member := "InvokeSchemaProviderMethod"
    family := .detectedApi, reason := "XmlSchemaProviderAttributeMethodName" },
  { declaringType := "System.Runtime.Serialization.CollectionDataContract"
    member := "IsCollectionOrTryCreate"
    family := .detectedApi, reason := "CollectionDataContractRequiresAddMethodMaybeOk" },
  { declaringType := "System.Runtime.Serialization.Formatters.Binary.ObjectReader"
    member := "GetSimplyNamedTypeFromAssembly"
    family := .detectedApi, reason := "BinaryFormatterGetType" },
  { declaringType :=
      "System.Runtime.Serialization.ClassDataContract/ClassDataContractCriticalHelper"
    memberPattern := "^(SetKeyValuePairAdapterFlags|GetISerializableConstructor)$"
    family := .detectedApi, reason := "DataContractSerializationReflection" },
  { declaringType := "System.Runtime.Serialization.XmlFormatReaderGenerator/CriticalHelper"
    member := "CreateObject"
    family := .detectedApi, reason := "XmlFormatReaderGeneratorSafe" },
  { declaringType := "System.Runtime.Serialization.XmlFormatReaderGenerator/CriticalHelper"
    member := "WrapNullableObject"
    family := .detectedApi, reason := "XmlFormatReaderGeneratorMaybeSafe" },
  { declaringType := "System.Runtime.Serialization.PrimitiveDataContract"
    member := "get_XmlFormatReaderMethod"
    family := .detectedApi, reason := "DataContractSimple" },
  { declaringTypePattern :=
      "^System\\.Runtime\\.Serialization\\.(SerializationException|DeserializationTracker)$"
    family := .catchAll, exempt := true },
  { declaringType := "System.Runtime.Serialization.SerializationInfo"
    memberPattern :=
      "^(get_AsyncDeserializationInProgress|get_DeserializationInProgress|" ++
      "ThrowIfDeserializationInProgress|StartDeserialization)$"
    family := .catchAll, exempt := true },
  { declaringTypePattern := "^System\\.Runtime\\.Serialization"
    family := .catchAll, reason := "SerializationBigHammer" } ]

/-- Annotations: LINQ expressions. -/
def linqExpressions : List RuleSpec := [
  { declaringTypePattern := "^System\\.Linq\\.Expressions\\.(LambdaExpression|Expression`1)$"
    member := "Compile"
    family := .annotated, reason := "LinqExpressionCompilation" },
  { declaringType := "System.Linq.Expressions.Expression"
    memberPattern := "^Power(Assign)?$"
    family := .annotated, reason := "LinqExpressionCompilation" },
  { declaringType := "System.Linq.Expressions.CachedReflectionInfo"
    memberPattern := "^get_"
    family := .annotated, reason := "CachedReflectionInfo" },
  { declaringType := "System.Linq.Expressions.Compiler.CompilerScope/ElementBoxStorage"
    member := ".ctor"
    family := .annotated, reason := "ElementBoxStorage" },
  { declaringType := "System.Linq.Expressions.Compiler.CompilerScope/LocalBoxStorage"
    member := ".ctor"
    family := .annotated, reason := "LocalBoxStorage" },
  { declaringType := "System.Linq.Expressions.Compiler.CompilerScope"
    member := "EmitNewHoistedLocals"
    family := .annotated, reason := "EmitNewHoistedLocals" },
  { declaringType := "System.Linq.Expressions.Interpreter.LightCompiler"
    memberPattern := "^(CompileInvocationExpression|CompileCoalesceBinaryExpression)$"
    family := .annotated, reason := "LinqCompileReflection" },
  { declaringType := "System.Linq.Expressions.Compiler.LambdaCompiler"
    memberPattern :=
      "^(EmitInvocationExpression|EmitUnary|EmitLift|EmitDynamicExpression|" ++
      "EmitGetArrayElement|EmitSetArrayElement|EmitLiftedBinaryArithmetic)$"
    family := .annotated, reason := "LinqCompileReflection" },
  { declaringType := "System.Linq.Expressions.Compiler.LambdaCompiler"
    member := "CreateLazyInitializedField"
    family := .annotated, reason := "LinqExpressionFieldString" },
  { declaringType := "System.Linq.Expressions.Compiler.ILGen"
    member := "EmitArray"
    parameters := some [2]
    family := .annotated, reason := "LinqCompileReflection" },
  { declaringType := "System.Linq.Expressions.Compiler.ILGen"
    memberPattern :=
      "^(EmitHasValue|EmitGetValueOrDefault|TryEmitILConstant|" ++
      "EmitNullableToNullableConversion|EmitNonNullableToNullableConversion|EmitGetValue)$"
    family := .annotated, reason := "LinqCompileReflection" },
  { declaringType := "System.Dynamic.Utils.TypeUtils"
    member := "GetInvokeMethod"
    family := .annotated, reason := "LinqCompileReflection" },
  { declaringType := "System.Linq.Expressions.Expression"
    memberPattern := "^(MakeIndex|CreateLambda)$"
    family := .annotated, reason := "LinqCompileReflection" },
  { declaringType := "System.Linq.Expressions.Expression"
    member := "Call"
    parameters := some [4]
    parameterTypes := some ["*", "System.String"]
    family := .annotated, reason := "LinqExpressionCallString" },
  { declaringType := "System.Linq.Expressions.Expression"
    member := "MakeMemberAccess"
    family := .annotated, reason := "LinkerShouldNotWarn" },
  { declaringType := "System.Linq.Expressions.Expression"
    member := "Call"
    parameters := some [3]
    parameterTypes := some ["*", "System.Reflection.MethodInfo"]
    family := .annotated, reason := "LinkerShouldNotWarn" },
  { declaringType := "System.Linq.Expressions.Expression"
    member := "CheckMethod"
    family := .annotated, reason := "LinqCheckMethod" },
  { declaringType := "System.Linq.Expressions.TypeBinaryExpression"
    member := "ByValParameterTypeEqual"
    family := .annotated, reason := "LinqExpressionCallMaybeSafe" },
  { declaringType := "System.Linq.Expressions.Interpreter.CallInstruction"
    member := "GetArrayAccessor"
    family := .annotated, reason := "LinqGetValue" },
  { declaringType := "System.Dynamic.Utils.TypeExtensions"
    member := "GetAnyStaticMethodValidated"
    family := .annotated, reason := "LinqGetMethodWrapper" },
  { declaringType := "System.Dynamic.Utils.DelegateHelpers"
    member := ".cctor"
    family := .annotated, reason := "DelegateHelpersStatics" },
  { declaringType := "System.Dynamic.ExpandoObject"
    member := ".cctor"
    family := .annotated, reason := "ExpandoObjectSimple" } ]

/-- Annotations: dynamic binders and call sites. -/
def dynamicBinding : List RuleSpec := [
  { declaringType := "System.Runtime.CompilerServices.CallSiteHelpers"
    member := ".cctor"
    family := .annotated, reason := "CallSiteHelpersSimple" },
  { declaringType := "System.Runtime.CompilerServices.CallSiteBinder"
    member := "Stitch"
    family := .annotated, reason := "CallSiteBinderSimple" },
  { declaringType := "System.Runtime.CompilerServices.CallSite`1"
    member := "CreateCustomNoMatchDelegate"
    family := .annotated, reason := "CallSiteSimple" },
  { declaringType := "Microsoft.VisualBasic.CompilerServices.IDOUtils"
    memberPattern := "^Create(Ref|Func|Convert)CallSiteAndInvoke$"
    family := .annotated, reason := "IDOBinderReflection" },
  { declaringType := "Microsoft.CSharp.RuntimeBinder.SymbolTable"
    member := "AddAggregateToSymbolTable"
    family := .annotated, reason := "RuntimeBinderReflection" },
  { declaringType := "Microsoft.CSharp.RuntimeBinder.RuntimeBinderExtensions/<>c"
    member := "<.cctor>b__11_0"
    family := .annotated, reason := "RuntimeBinderReflection" },
  { declaringType := "Microsoft.CSharp.RuntimeBinder.SymbolTable"
    member := "GetTypeByName"
    family := .annotated, reason := "RuntimeBinderReflectionSafe" } ]

/-- Annotations: proxies, activation and lazy values. -/
def activation : List RuleSpec := [
  { declaringType := "System.Reflection.DispatchProxy"
    member := "Create"
    family := .annotated, reason := "DispatchProxy" },
  { declaringType := "System.Reflection.DispatchProxyGenerator/ProxyBuilder"
    member := "AddMethodImpl"
    family := .annotated, reason := "DispatchProxy" },
  { declaringType := "System.RuntimeType/ActivatorCache"
    member := "Initialize"
    family := .annotated, reason := "ActivatorCacheSimple" },
  { declaringType := "System.Reflection.RuntimeModule"
    member := "GetMethodInternal"
    family := .annotated, reason := "GetMethod" },
  { declaringType := "Internal.Runtime.InteropServices.ComponentActivator"
    member := "LoadAssemblyAndGetFunctionPointer"
    family := .annotated, reason := "ComponentActivator" },
  -- Lazy<T>() and friends end in Activator.CreateInstance<T>().
  { declaringType := "System.Lazy`1"
    member := ".ctor"
    parameters := some [0]
    family := .annotated, reason := "LazyOfT" },
  { declaringType := "System.Lazy`1"
    member := ".ctor"
    parameters := some [1]
    parameterTypes := some ["System.Boolean"]
    family := .annotated, reason := "LazyOfT" },
  { declaringType := "System.Lazy`1"
    member := ".ctor"
    parameters := some [1]
    parameterTypes := some ["System.Threading.LazyThreadSafetyMode"]
    family := .annotated, reason := "LazyOfT" },
  { declaringType := "System.LazyHelper"
    member := "CreateViaDefaultConstructor"
    family := .annotated, safe := true },
  { declaringType := "System.AppDomain"
    member := "GetThreadPrincipal"
    family := .annotated, reason := "ThreadPrincipal" },
  { declaringType := "System.Threading.Thread"
    member := "get_CurrentPrincipal"
    family := .annotated, reason := "ThreadPrincipal" },
  { declaringType := "System.Diagnostics.StackFrameHelper"
    member := "InitializeSourceInfo"
    family := .annotated, reason := "SourceInfo" } ]

/-- Annotations: event sources. -/
def eventSource : List RuleSpec := [
  { declaringType := "System.Diagnostics.Tracing.EventSource"
    member := "GetCustomAttributeHelper"
    family := .annotated, reason := "EventSourceGetCustomAttributeHelperLooksSafe" },
  { declaringType := "System.Diagnostics.Tracing.EventSource"
    family := .catchAll, reason := "EventSourceBigHammer" } ]

/-- Annotations: `System.ComponentModel`. -/
def componentModel : List RuleSpec := [
  { declaringType := "System.ComponentModel.TimeSpanConverter"
    member := "ConvertTo"
    family := .annotated, reason := "TypeConverterConvertToSimple" },
  { declaringTypePattern :=
      "" ++
      "^(System\\.Security\\.Authentication\\.ExtendedProtection\\.ExtendedProtectionPolicyTypeConverter|" ++
      "System\\.Drawing\\.(PointConverter|RectangleConverter|SizeConverter|SizeFConverter)|" ++
      "System\\.ComponentModel\\.(DateTimeConverter|DateTimeOffsetConverter|DecimalConverter|" ++
      "GuidConverter|CultureInfoConverter|VersionConverter)|System\\.UriTypeConverter)$"
    member := "ConvertTo"
    family := .annotated, reason := "TypeConverterConvertToComplex" },
  { declaringType := "System.ComponentModel.DefaultValueAttribute"
    member := ".ctor"
    parameters := some [2]
    family := .annotated, reason := "DefaultValueAttribute" },
  { declaringType := "System.ComponentModel.PropertyDescriptor"
    memberPattern := "^(get_Converter|GetEditor)$"
    family := .annotated, reason := "ComponentModelAttributeRequiresCtor" },
  { declaringType := "System.ComponentModel.TypeDescriptor"
    member := "CheckDefaultProvider"
    family := .annotated, reason := "ComponentModelAttributeRequiresCtor" },
  { declaringType := "System.ComponentModel.AttributeCollection"
    member := "GetDefaultAttribute"
    family := .annotated, reason := "ComponentModelAttributeRequiresDefaultField" },
  { declaringType := "System.ComponentModel.MemberDescriptor"
    member := "FindMethod"
    family := .annotated, reason := "ComponentModelFindMethod" },
  { declaringType := "System.ComponentModel.LicenseProviderAttribute"
    member := "get_LicenseProvider"
    family := .annotated, reason := "ComponentModelAttributeRequiresType" },
  { declaringType := "System.ComponentModel.PropertyTabAttribute"
    member := "get_TabClasses"
    family := .annotated, reason := "ComponentModelAttributeRequiresType" },
  { declaringType := "System.ComponentModel.BindingList`1"
    member := "get_ItemTypeHasDefaultConstructor"
    family := .annotated, reason := "ComponentModelBindingListRequiresCtor" },
  { declaringType := "System.ComponentModel.DataAnnotations.LocalizableString"
    member := "GetLocalizableValue"
    family := .annotated, safe := true },
  { declaringType := "System.ComponentModel.DataAnnotations.LocalizableString"
    member := "set_ResourceType"
    family := .annotated, reason := "ResourceTypeReflection" },
  { declaringType := "System.ComponentModel.DataAnnotations.CountPropertyHelper"
    member := "TryGetCount"
    family := .annotated, reason := "ComponentValidatorReflection" } ]

/-- Annotations: attributes. -/
def attributeAnnotations : List RuleSpec := [
  { declaringType := "System.Attribute"
    member := "GetParentDefinition"
    parameters := some [2]
    parameterTypes := some ["System.Reflection.PropertyInfo"]
    family := .annotated, reason := "AttributeParentReflection" },
  { declaringType := "System.Attribute"
    member := "GetParentDefinition"
    parameters := some [1]
    parameterTypes := some ["System.Reflection.EventInfo"]
    family := .annotated, reason := "AttributeParentReflection" },
  { declaringType := "System.Reflection.CustomAttribute"
    member := "AddCustomAttributes"
    family := .annotated, reason := "AttributeNamedParamReflection" } ]

/-- Annotations: `System.Data`. -/
def data : List RuleSpec := [
  { declaringType := "System.Data.DataColumn"
    member := "get_DefaultValue"
    family := .annotated, reason := "DataColumnGetsNullPropertyOfType" },
  { declaringType := "System.Data.Common.DbProviderFactories"
    memberPattern := "^(GetProviderTypeFromTypeName|GetFactoryInstance)$"
    family := .annotated, reason := "DbProviderType" },
  { declaringType := "System.Data.DataTable"
    member := "DeserializeTableSchema"
    family := .annotated, reason := "DeserializeDataTableGetType" },
  { declaringType := "System.Data.Common.SqlUdtStorage/<>c__DisplayClass6_0"
    member := "<GetStaticNullForUdtType>b__0"
    family := .annotated, reason := "SqlUdtStorageStaticNull" },
  { declaringType := "System.Data.XSDSchema"
    member := "SetProperties"
    family := .annotated, reason := "XMLSchemaSetPropertiesGetType" },
  { declaringType := "System.Data.Common.DataStorage"
    member := "GetType"
    family := .annotated, reason := "DataStorageGetType" } ]

/-- Annotations: XML serialization and XSLT. -/
def xml : List RuleSpec := [
  { declaringType := "System.Xml.Serialization.XmlSerializer"
    memberPattern := "^(\\.ctor|FromMappings)$"
    family := .annotated, reason := "XmlSerialization" },
  { declaringTypePattern := "^System\\.Xml\\.Serialization\\.XmlSerialization(Writer|Reader)ILGen$"
    member := "GenerateMethod"
    family := .annotated, reason := "XmlSerialization" },
  { declaringType := "System.Xml.Serialization.XmlSchemaExporter"
    memberPattern := "^Export(TypeMapping|MembersMapping)$"
    family := .annotated, reason := "XmlSchemaMapping" },
  { declaringType := "System.Xml.Serialization.XmlSchemaExporter"
    member := "ExportDefaultValue"
    family := .annotated, reason := "ExportDefaultValue" },
  { declaringType := "System.Xml.Serialization.XmlSerializationILGen"
    member := "GeneratePublicMethods"
    family := .annotated, reason := "XmlSerializationILGenSimple" },
  { declaringType := "System.Xml.Serialization.SourceInfo/<>c"
    member := "<.cctor>b__20_0"
    family := .annotated, reason := "XmlSerializationSourceInfoSimple" },
  { declaringType := "System.Xml.Serialization.CodeGenerator"
    member := "StoreArrayElement"
    family := .annotated, reason := "XmlSerializationCodeGeneratorSimple" },
  { declaringType := "System.Xml.Serialization.TempAssembly"
    member := "GenerateRefEmitAssembly"
    family := .annotated, reason := "GenerateRefEmitAssembly" },
  { declaringType := "System.Xml.Serialization.TempAssembly"
    member := "GetMethodFromType"
    family := .annotated, reason := "XmlSerializationGetMethodFromType" },
  { declaringType := "System.Xml.Serialization.TypeScope"
    member := "GetEnumeratorElementType"
    family := .annotated, reason := "GetEnumeratorElementType" },
  { declaringType := "System.Xml.Serialization.TypeScope"
    member := "GetDefaultIndexer"
    family := .annotated, reason := "XmlSerializationRequiresAddMethod" },
  { declaringType := "System.Xml.Serialization.TypeScope"
    member := "GetConstructorFlags"
    family := .annotated, reason := "XmlSerializationGetConstructorFlags" },
  { declaringType := "System.Xml.Extensions.ExtensionMethods"
    member := "GetMethod"
    family := .annotated, reason := "GetMethod" },
  { declaringType := "System.Xml.Extensions.ExtensionMethods"
    member := "GetConstructor"
    family := .annotated, reason := "GetConstructor" },
  { declaringType := "System.Xml.Serialization.XmlReflectionImporter"
    member := "GetMethodFromSchemaProvider"
    family := .annotated, reason := "XmlReflectionGetMethod" },
  { declaringType := "System.Xml.Serialization.XmlReflectionImporter"
    member := "GetChoiceIdentifierType"
    family := .annotated, reason := "XmlReflectionImporter" },
  { declaringType := "System.Xml.Serialization.FieldModel"
    member := ".ctor"
    parameters := some [3]
    family := .annotated, reason := "XmlSoapImporterFieldModelReflection" },
  { declaringType := "System.Xml.Serialization.ReflectionXmlSerializationReader"
    member := "AddObjectsIntoTargetCollection"
    family := .annotated, reason := "XmlSerializationReaderCollectionAdd" },
  { declaringType :=
      "System.Xml.Serialization.ReflectionXmlSerializationReader/<>c__DisplayClass54_1"
    member := "<WriteLiteralStructMethod>b__3"
    family := .annotated, reason := "XmlSerializationReaderGetMethod" },
  { declaringType := "System.Xml.Xsl.Runtime.EarlyBoundInfo"
    member := ".ctor"
    family := .annotated, reason := "EarlyBoundInfoRequiresCtor" },
  { declaringType := "System.Xml.Xsl.IlGen.XmlILModule"
    member := "BakeMethods"
    family := .annotated, reason := "XmlILGeneratorBakeMethodsReflection" },
  { declaringType := "System.Xml.Xsl.IlGen.IteratorDescriptor"
    member := "PushValue"
    family := .annotated, reason := "XmlILGenGetCurrent" },
  { declaringType := "System.Xml.Xsl.Runtime.XsltMethods"
    member := "GetMethod"
    family := .annotated, reason := "XsltGetMethod" } ]

/-- Annotations: JSON and cryptography. -/
def jsonAndCryptography : List RuleSpec := [
  { declaringType := "System.Text.Json.JsonSerializerOptions"
    member := "GetConverterFromAttribute"
    family := .annotated, reason := "JsonConverterAttributeRequiresCtor" },
  { declaringType := "System.Security.Cryptography.CryptoConfig"
    member := "CreateFromName"
    family := .annotated, reason := "CryptoConfig" },
  { declaringType := "System.Security.Cryptography.CryptoConfigForwarder"
    member := "BindCreateFromName"
    family := .annotated, reason := "CryptoConfigForwarderReflectionDependency" },
  { declaringType := "Internal.Cryptography.Pal.CertificateAssetDownloader"
    member := "CreateDownloadBytesFunc"
    family := .annotated, reason := "CertificateDownloader" } ]

end Builtin

/-- The table for use where no other is given. -/
def RuleTable.builtin : RuleTable where
  unanalyzedReason := "LinkerUnanalyzed"
  rules :=
    Builtin.activator ++ Builtin.appDomain ++ Builtin.delegate ++ Builtin.systemType ++
      Builtin.assembly ++ Builtin.attributesAndMembers ++ Builtin.emit ++ Builtin.resources ++
      Builtin.interopServices ++ Builtin.loader ++ Builtin.serialization ++
      Builtin.linqExpressions ++ Builtin.dynamicBinding ++ Builtin.activation ++
      Builtin.eventSource ++ Builtin.componentModel ++ Builtin.attributeAnnotations ++
      Builtin.data ++ Builtin.xml ++ Builtin.jsonAndCryptography

end CallAudit
